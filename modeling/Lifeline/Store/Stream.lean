import Lifeline.Store.Basic

/-!
# The stream of saved diagrams

A client that listens is sent the list of saved diagrams, and again after each
change.  The sender is suspended at three places: before it looks whether the
client is still there, while an event is handed out, and while it waits for the
version to exceed the one it saw last.  That version is read after the event
was handed out.
-/

namespace Lifeline

/-- Where the sender of a stream is suspended. -/
inductive StreamPhase where
  | checking
  | sending (diagrams : List Json)
  | waiting (since : Nat)
  /-- The list could not be made, and the stream has ended. -/
  | ended

namespace StreamPhase

/-- The sender can run. -/
def canRun (s : Store) : StreamPhase → Bool
  | .checking => true
  | .sending _ => true
  | .waiting since => since < s.version
  | .ended => false

/-- The sender runs to its next suspension. -/
def next (s : Store) : StreamPhase → StreamPhase
  | .checking =>
      match s.list? with
      | some diagrams => .sending diagrams
      | none => .ended
  | .sending _ => .waiting s.version
  | .waiting since => if since < s.version then .checking else .waiting since
  | .ended => .ended

/-- What is handed out at a suspension. -/
def handedOut? : StreamPhase → Option (List Json)
  | .sending diagrams => some diagrams
  | _ => none

/-- The text of an event. -/
def eventText (diagrams : List Json) : Text :=
  "data: ".toText ++ Json.write .line (.arr diagrams) ++ "\n\n".toText

/-- Runs the sender while the store rests: from a wait that is over, or from
the beginning, to the next wait.  Gives where it waits and the event that was
handed out on the way. -/
def run (s : Store) (phase : StreamPhase) : StreamPhase × Option Text :=
  let phase := match phase with
    | .waiting _ => phase.next s
    | _ => phase
  match phase with
  | .checking =>
      let sending := phase.next s
      (sending.next s, sending.handedOut?.map eventText)
  | _ => (phase, none)

end StreamPhase
end Lifeline
