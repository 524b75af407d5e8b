import Lifeline.PlantUml.Declaration
import Lifeline.PlantUml.Fragment
import Lifeline.PlantUml.Note
import Lifeline.Text.Quoted
import Lifeline.Session

/-!
# From PlantUML to Mermaid

The converter reads a diagram line by line.  Between lines it is in a mode:
neutral, or inside a block comment, a note of several lines, or a styling block
with some depth of braces.  In its mode each trimmed line is passed over, gives
a Mermaid line, or is not recognised.  The lenient conversion keeps what the
lines give; the strict one also refuses the first line that is not recognised.
The modes do not depend on strictness.
-/

namespace Lifeline

/-- A line that matches no known form: trimmed, with its number from 1. -/
structure UnrecognizedLine where
  line : Text
  number : Nat
deriving DecidableEq

/-- The wording for an unrecognised line. -/
def UnrecognizedLine.message (e : UnrecognizedLine) : Text :=
  "Unrecognized diagram syntax (line ".toText ++ Text.ofNat e.number ++ "): ".toText ++
    Text.quoted e.line

namespace PlantUml

/-- Where the converter is between two lines. -/
inductive Mode where
  | neutral
  | comment
  | note
  /-- Inside a styling block with this many open braces beyond the first. -/
  | styling (more : Nat)
deriving DecidableEq

/-- What becomes of a line. -/
inductive Verdict where
  | dropped
  | converted (mermaid : Text)
  | unrecognized
deriving DecidableEq

/-- The Mermaid line of a line. -/
def Verdict.mermaid? : Verdict → Option Text
  | .converted m => some m
  | _ => none

/-- The mode with a number of open braces. -/
def Mode.ofDepth : Nat → Mode
  | 0 => .neutral
  | depth + 1 => .styling depth

/-- A depth of braces behind a line, never below zero. -/
def depthBehind (depth : Nat) (line : Text) : Nat :=
  depth + line.count (.char '{') - line.count (.char '}')

/-- A line closes a block comment. -/
def closesComment (line : Text) : Bool :=
  Text.contains "'/".toText line

/-- A line belongs to the styling of the diagram. -/
def isStyling (line : Text) : Bool :=
  (Text.after? ['!'] line).isSome ||
    ["skinparam".toText, "hide".toText, "show".toText, "scale".toText].any fun word =>
      match Text.afterKeyword? word line with
      | some rest => Text.atWordEnd rest
      | none => false

/-- The mode behind a styling line: a `skinparam` line may open a block. -/
def modeBehindStyling (line : Text) : Mode :=
  if (Text.after? "skinparam".toText (Text.lower line)).isSome then
    .ofDepth (depthBehind 0 line)
  else
    .neutral

/-- The title on a line. -/
def title? (line : Text) : Option Text :=
  match Text.afterKeyword? "title".toText line with
  | none => none
  | some rest => (Text.afterBlanks? rest).map Text.strip

/-- A line switches message numbers on. -/
def isAutonumber (line : Text) : Bool :=
  match Text.afterKeyword? "autonumber".toText line with
  | some rest => Text.atWordEnd rest
  | none => false

/-- What becomes of a line that is neither declaration nor note. -/
def fragmentOrMessage (line : Text) : Verdict :=
  match convertFragment? line with
  | some m => .converted m
  | none =>
      match convertMessage? line with
      | some m => .converted m
      | none => .unrecognized

/-- What becomes of a line that draws something, and the mode behind it. -/
def drawing (line : Text) : Mode × Verdict :=
  match convertDeclaration? line with
  | some m => (.neutral, .converted m)
  | none =>
      match convertNote? line with
      | some m => (.neutral, .converted m)
      | none =>
          if Note.begins line && !(decide (.char ':' ∈ line)) then (.note, .dropped)
          else if Note.ends line then (.neutral, .dropped)
          else (.neutral, fragmentOrMessage line)

/-- What becomes of a trimmed line in the neutral mode, and the mode behind
it. -/
def neutralStep (line : Text) : Mode × Verdict :=
  match line with
  | [] => (.neutral, .dropped)
  | '@' :: _ => (.neutral, .dropped)
  | '\'' :: _ => (.neutral, .dropped)
  | '/' :: '\'' :: rest => (if closesComment rest then .neutral else .comment, .dropped)
  | _ =>
      if isStyling line then
        (modeBehindStyling line, .dropped)
      else
        match title? line with
        | some title => (.neutral, .converted ("title ".toText ++ title))
        | none =>
            if isAutonumber line then (.neutral, .converted "autonumber".toText)
            else drawing line

/-- What becomes of a trimmed line, and the mode behind it. -/
def step : Mode → Text → Mode × Verdict
  | .neutral, line => neutralStep line
  | .comment, line => (if closesComment line then .neutral else .comment, .dropped)
  | .note, line => (if Note.ends line then .neutral else .note, .dropped)
  | .styling more, line => (.ofDepth (depthBehind (more + 1) line), .dropped)

/-- What becomes of trimmed lines, one after the other. -/
def verdicts : Mode → List Text → List Verdict
  | _, [] => []
  | mode, line :: rest =>
      let (behind, verdict) := step mode line
      verdict :: verdicts behind rest

/-- The mode behind trimmed lines. -/
def modeAfter : Mode → List Text → Mode
  | mode, [] => mode
  | mode, line :: rest => modeAfter (step mode line).1 rest

/-- The trimmed lines of a diagram. -/
def trimmedLines (code : Text) : List Text :=
  (Text.lines code).map Text.strip

/-- The first line whose verdict is that it is not recognised; `number` is the
number of the first line. -/
def firstUnrecognized? : Nat → List Text → List Verdict → Option UnrecognizedLine
  | number, line :: _, .unrecognized :: _ => some ⟨line, number⟩
  | number, _ :: rest, _ :: verdicts => firstUnrecognized? (number + 1) rest verdicts
  | _, _, _ => none

/-- The first line of every Mermaid diagram. -/
def header : Text := "sequenceDiagram".toText

/-- The Mermaid diagram with the given lines. -/
def diagram (ls : List Text) : Text :=
  Text.unlines (header :: ls.map fun l => "    ".toText ++ l)

/-- The Mermaid diagram of a PlantUML diagram; lines that are not recognised
are left out. -/
def convert (code : Text) : Text :=
  diagram ((verdicts .neutral (trimmedLines code)).filterMap Verdict.mermaid?)

/-- The Mermaid diagram of a PlantUML diagram, all lines of which are
recognised. -/
def convertStrict (code : Text) : Except UnrecognizedLine Text :=
  let ls := trimmedLines code
  match firstUnrecognized? 1 ls (verdicts .neutral ls) with
  | some e => .error e
  | none => .ok (convert code)

/-- Converts strictly or leniently. -/
def convertWith (strict : Bool) (code : Text) : Except UnrecognizedLine Text :=
  if strict then convertStrict code else .ok (convert code)

/-- A text looks like PlantUML: it opens as such, has a plain arrow and none of
Mermaid, or has participants and no Mermaid header. -/
def looksLike (code : Text) : Bool :=
  let t := Text.lower (Text.strip code)
  (Text.after? "@startuml".toText t).isSome ||
    (Text.contains "->".toText t && !Text.contains "->>".toText t) ||
    (Text.contains "participant".toText t && !Text.contains "sequencediagram".toText t)

end PlantUml

/-- The Mermaid text of a diagram in the named syntax; only PlantUML is
converted. -/
def mermaidOf (strict : Bool) (mode code : Text) : Except UnrecognizedLine Text :=
  if mode = plantUmlMode then PlantUml.convertWith strict code else .ok code

end Lifeline
