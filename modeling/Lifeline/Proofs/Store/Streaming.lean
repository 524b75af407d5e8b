import Lifeline.Proofs.Store.Identifiers
import Lifeline.Store.Stream
import Mathlib.Data.List.Induction

/-!
# What a stream misses

The sender of a stream makes the list of diagrams, hands it out, and only then looks up
the version that it waits to see exceeded.  Calls come in wherever it is suspended.  A
change that comes in while it waits ends the wait, but of one that comes in while a list
is handed out the sender takes the version and not the diagrams, so that it waits with
the old list sent.  It is told here which list a sender that is blocked has sent, and
that it is the list of the store when no change came in while it was handed out.
-/

namespace Lifeline

/-- A store with one stream, and the list that was handed out last. -/
structure Streaming where
  store : Store
  phase : StreamPhase
  sent : Option (List Json)

namespace Streaming

/-- What happens next: a call, or the sender runs to its next suspension. -/
inductive Event where
  | call (c : Store.Call)
  | turn

/-- A stream that was opened and has sent nothing yet. -/
def start (s : Store) : Streaming :=
  ⟨s, .checking, none⟩

def turn (t : Streaming) : Streaming :=
  { t with phase := t.phase.next t.store, sent := (t.phase.next t.store).handedOut?.or t.sent }

def after (t : Streaming) : Event → Streaming
  | .call c => { t with store := t.store.call c }
  | .turn => t.turn

def run (s : Store) (events : List Event) : Streaming :=
  events.foldl after (start s)

/-- The sender makes a list, the calls come in while it is handed out, and the sender
goes on to wait. -/
def handOut (calls : List Store.Call) : List Event :=
  .turn :: (calls.map .call ++ [.turn])

/-- The sender waits, and the version that it saw last is not exceeded. -/
def Blocked (t : Streaming) : Prop :=
  ∃ since, t.phase = .waiting since ∧ t.phase.canRun t.store = false

end Streaming

namespace Store

variable {s t : Store}

/-- A store stands after another one as it does after some calls: at the same version
it has the same diagrams. -/
structure Follows (s t : Store) : Prop where
  version_le : s.version ≤ t.version
  diagrams_eq : t.version = s.version → t.diagrams = s.diagrams

theorem Follows.refl (s : Store) : Follows s s :=
  ⟨Nat.le_refl _, fun _ => rfl⟩

theorem Follows.call (h : Follows s t) (c : Call) : Follows s (t.call c) := by
  have hle := h.version_le
  rcases version_call t c with ⟨hversion, hdiagrams⟩ | hversion
  · exact ⟨by omega, fun hsame => hdiagrams.trans (h.diagrams_eq (hversion.symm.trans hsame))⟩
  · exact ⟨by omega, fun hsame => by omega⟩

theorem follows_run (s : Store) (calls : List Call) : Follows s (s.run calls) :=
  run_induction (fun _ c h => h.call c) (Follows.refl s) calls

theorem run_append_singleton (s : Store) (calls : List Call) (c : Call) :
    s.run (calls ++ [c]) = (s.run calls).call c :=
  List.foldl_append

theorem list?_congr (h : t.diagrams = s.diagrams) : t.list? = s.list? := by
  rw [list?, list?, h]

end Store

namespace Streaming

variable {s : Store} {events before : List Event} {t : Streaming} {diagrams : List Json}

theorem run_append (s : Store) (events more : List Event) :
    run s (events ++ more) = more.foldl after (run s events) :=
  List.foldl_append

/-- How a sender came to its phase: the list that was handed out last was made after the
events `before`, and `calls` came in while it was handed out. -/
def Explained (s : Store) (events : List Event) (t : Streaming) : Prop :=
  match t.phase with
  | .sending diagrams => ∃ before calls,
      events = before ++ Event.turn :: calls.map Event.call ∧
        (run s before).phase = .checking ∧ (run s before).store.list? = some diagrams ∧
          t.sent = some diagrams ∧ t.store = (run s before).store.run calls
  | .waiting since => ∃ before calls later,
      events = before ++ handOut calls ++ later ∧
        (run s before).phase = .checking ∧ t.sent = (run s before).store.list? ∧
          since = ((run s before).store.run calls).version ∧
            Store.Follows ((run s before).store.run calls) t.store
  | _ => True

theorem Explained.call (h : Explained s events t) (c : Store.Call) :
    Explained s (events ++ [Event.call c]) (t.after (.call c)) := by
  unfold Explained at h ⊢
  simp only [after]
  -- While an event is handed out a call belongs to it; while the sender waits it comes later.
  cases hphase : t.phase with
  | checking => trivial
  | ended => trivial
  | sending diagrams =>
      rw [hphase] at h
      obtain ⟨before, calls, rfl, hchecking, hlist, hsent, hstore⟩ := h
      refine ⟨before, calls ++ [c], ?_, hchecking, hlist, hsent, ?_⟩
      · simp
      · rw [Store.run_append_singleton, hstore]
  | waiting since =>
      rw [hphase] at h
      obtain ⟨before, calls, later, rfl, hchecking, hsent, hsince, hfollows⟩ := h
      refine ⟨before, calls, later ++ [Event.call c], ?_, hchecking, hsent, hsince, ?_⟩
      · simp
      · exact hfollows.call c

theorem Explained.turn (h : Explained s events (run s events)) :
    Explained s (events ++ [Event.turn]) (run s events).turn := by
  unfold Explained at h ⊢
  simp only [Streaming.turn]
  -- A turn adds to the history only when it hands something out.
  cases hphase : (run s events).phase with
  | checking =>
      cases hlist : (run s events).store.list? with
      | none => simp only [StreamPhase.next, hlist]
      | some diagrams =>
          simp only [StreamPhase.next, hlist, StreamPhase.handedOut?, Option.some_or]
          exact ⟨events, [], rfl, hphase, hlist, trivial, rfl⟩
  | sending diagrams =>
      rw [hphase] at h
      obtain ⟨before, calls, hevents, hchecking, hlist, hsent, hstore⟩ := h
      refine ⟨before, calls, [], ?_, hchecking, hsent.trans hlist.symm, ?_, ?_⟩
      · rw [hevents]
        simp [handOut]
      · rw [hstore]
      · rw [hstore]
        exact Store.Follows.refl _
  | waiting since =>
      rw [hphase] at h
      by_cases hnew : since < (run s events).store.version
      · simp only [StreamPhase.next, if_pos hnew]
      · simp only [StreamPhase.next, if_neg hnew, StreamPhase.handedOut?, Option.none_or]
        obtain ⟨before, calls, later, hevents, hrest⟩ := h
        refine ⟨before, calls, later ++ [Event.turn], ?_, hrest⟩
        rw [hevents]
        simp
  | ended => trivial

theorem explained_run (s : Store) (events : List Event) : Explained s events (run s events) := by
  induction events using List.reverseRecOn with
  | nil => trivial
  | append_singleton events e ih =>
      rw [run_append]
      cases e with
      | call c => exact ih.call c
      | turn => exact ih.turn

/-- A sender that is blocked has sent the list that was made before its last event was
handed out.  This is the list of the store as it is now unless a change came in with the
calls after that, while the event was handed out. -/
theorem sent_of_blocked (h : (run s events).Blocked) :
    ∃ before calls later,
      events = before ++ handOut calls ++ later ∧
        (run s before).phase = .checking ∧
        (run s events).sent = (run s before).store.list? ∧
        ((run s before).store.run calls).list? = (run s events).store.list? ∧
        (((run s before).store.run calls).version = (run s before).store.version →
          (run s events).sent = (run s events).store.list?) := by
  obtain ⟨since, hphase, hblocked⟩ := h
  have hexplained := explained_run s events
  rw [Explained, hphase] at hexplained
  obtain ⟨before, calls, later, hevents, hchecking, hsent, hsince, hfollows⟩ := hexplained
  have hversion : (run s events).store.version = ((run s before).store.run calls).version := by
    have hle := hfollows.version_le
    -- A blocked sender has seen every version since, so no call after that changed anything.
    have hnot : ¬ since < (run s events).store.version := by
      simpa [StreamPhase.canRun, hphase] using hblocked
    omega
  have hlist := Store.list?_congr (hfollows.diagrams_eq hversion)
  refine ⟨before, calls, later, hevents, hchecking, hsent, hlist.symm, fun hsame => ?_⟩
  have hdiagrams := (Store.follows_run (run s before).store calls).diagrams_eq hsame
  rw [hsent, hlist, Store.list?_congr hdiagrams]

/-- A store that nothing was saved in yet. -/
def noDiagrams : Store :=
  ⟨TextMap.empty, 0, none⟩

/-- The first diagram is saved before the sender has its first turn. -/
def savedBeforeSending : List Event :=
  .call (.put "t1".toText (Store.sketch "C++" "A->>B: one")) :: handOut []

theorem sent_of_blocked_savedBeforeSending :
    (run noDiagrams savedBeforeSending).Blocked ∧
      ∃ before calls later,
        savedBeforeSending = before ++ handOut calls ++ later ∧
          (run noDiagrams before).phase = .checking ∧
          (run noDiagrams savedBeforeSending).sent =
            (run noDiagrams before).store.list? ∧
          ((run noDiagrams before).store.run calls).list? =
            (run noDiagrams savedBeforeSending).store.list? ∧
          (((run noDiagrams before).store.run calls).version =
              (run noDiagrams before).store.version →
            (run noDiagrams savedBeforeSending).sent =
              (run noDiagrams savedBeforeSending).store.list?) := by
  have hblocked : (run noDiagrams savedBeforeSending).Blocked :=
    ⟨1, rfl, by decide⟩
  exact ⟨hblocked, sent_of_blocked hblocked⟩

theorem foldl_calls (t : Streaming) (calls : List Store.Call) :
    (calls.map Event.call).foldl after t = { t with store := t.store.run calls } := by
  induction calls generalizing t with
  | nil => rfl
  | cons c calls ih => exact ih (t.after (.call c))

/-- Whatever comes in while a list is handed out, the sender is blocked afterwards and
has sent the list as it was before. -/
theorem blocked_after_sending (hchecking : (run s before).phase = .checking)
    (hlist : (run s before).store.list? = some diagrams) (calls : List Store.Call) :
    (run s (before ++ handOut calls)).Blocked ∧
      (run s (before ++ handOut calls)).sent = some diagrams ∧
      (run s (before ++ handOut calls)).store = (run s before).store.run calls := by
  have hsending :
      (run s before).turn = ⟨(run s before).store, .sending diagrams, some diagrams⟩ := by
    simp [turn, hchecking, StreamPhase.next, hlist, StreamPhase.handedOut?]
  have hrun : run s (before ++ handOut calls) =
      ⟨(run s before).store.run calls, .waiting ((run s before).store.run calls).version,
        some diagrams⟩ := by
    rw [run_append, handOut, List.foldl_cons, List.foldl_append, after, hsending, foldl_calls]
    rfl
  rw [hrun]
  exact ⟨⟨_, rfl, by simp [StreamPhase.canRun]⟩, rfl, rfl⟩

/-- The first diagram is saved while the empty list is handed out. -/
def savedWhileSending : List Event :=
  handOut [.put "t1".toText (Store.sketch "C++" "A->>B: one")]

/-- The sender is blocked, it has sent the empty list, and there is a diagram. -/
theorem blocked_savedWhileSending :
    (run noDiagrams savedWhileSending).Blocked ∧
      (run noDiagrams savedWhileSending).sent = some [] ∧
      (run noDiagrams savedWhileSending).store.list?.map List.length = some 1 := by
  obtain ⟨hblocked, hsent, -⟩ :=
    @blocked_after_sending noDiagrams [] [] rfl rfl
      [.put "t1".toText (Store.sketch "C++" "A->>B: one")]
  exact ⟨hblocked, hsent, rfl⟩

end Streaming
end Lifeline
