import Lifeline.PlantUml.Arrow
import Lifeline.Text.Lines
import Lifeline.Text.Word

/-!
# Fragments and activations of PlantUML

Loops, alternatives and the like are opened, divided and closed by lines that
begin with a keyword in small letters; activations are switched in the same
way.  A keyword in front of an arrow is the name of a participant.
-/

namespace Lifeline.PlantUml

/-- The keywords of fragments and activations. -/
def fragmentKeywords : List Text :=
  ["loop".toText, "alt".toText, "else".toText, "opt".toText, "par".toText, "and".toText,
    "critical".toText, "break".toText, "activate".toText, "deactivate".toText]

/-- The line that closes a fragment. -/
def closesFragment (line : Text) : Bool :=
  line == "end".toText || line == "end\n".toText

/-- A keyword of a fragment at the beginning of a line, and the rest of the
line. -/
def fragment? (line : Text) : Option (Text × Text) :=
  match fragmentKeywords.findSome? fun word =>
      match Text.after? word line with
      | some rest => if Text.atWordEnd rest then some (word, rest) else none
      | none => none
  with
  | none => none
  | some (word, rest) => (Text.line? (Text.dropBlanks rest)).map fun rest => (word, rest)

/-- The Mermaid line of a line that opens, divides or closes a fragment or
switches an activation; `none` for another line. -/
def convertFragment? (line : Text) : Option Text :=
  if closesFragment line then
    some "end".toText
  else
    match fragment? line with
    | none => none
    | some (word, rest) =>
        if beginsWithArrow rest then none
        else if rest.isEmpty then some word
        else some (word ++ .char ' ' :: rest)

end Lifeline.PlantUml
