import Lifeline.PlantUml.Arrow
import Lifeline.Text.Lines

/-!
# Messages of PlantUML

A message is a source, an arrow, a target and perhaps a label behind a colon.
A mark of activation stands behind the arrow or behind the target.  Names are
in double quotes, or as short as the rest of the line allows.
-/

namespace Lifeline.PlantUml

/-- The parts of a message line, with names as they are written in Mermaid. -/
structure Message where
  source : Text
  arrow : Text
  activation : Activation
  target : Text
  label : Text
deriving DecidableEq

namespace Message

/-- A character of a name without quotes. -/
def isNameChar (c : CodePoint) : Bool :=
  c != '"' && c != ':'

/-- Reads a name and what follows it.  A name without quotes is trimmed. -/
def name? {α : Type} (next : Text → Option α) (t : Text) : Option (Text × α) :=
  match Text.quoted? t with
  | some (name, rest) => (next rest).map fun a => (name, a)
  | none => (Text.fewestSome isNameChar next t).map fun (name, a) => (Text.strip name, a)

/-- The label at the end of a line: nothing, or a colon and the label. -/
def label? (t : Text) : Option Text :=
  match Text.dropBlanks t with
  | [] => some []
  | ':' :: rest => (Text.line? (Text.dropBlanks rest)).map Text.strip
  | _ => none

/-- What stands behind the target: perhaps a mark of activation, and the
label. -/
def ending? (t : Text) : Option (Activation × Text) :=
  let marked :=
    match Text.afterBlanks? t with
    | none => none
    | some rest =>
        match activation? rest with
        | none => none
        | some (activation, behind) => (label? behind).map fun label => (activation, label)
  match marked with
  | some answer => some answer
  | none => (label? t).map fun label => (.none, label)

/-- What stands behind the arrow and its mark. -/
def target? (t : Text) : Option (Text × Activation × Text) :=
  Text.most Text.isBlank (name? ending?) t

/-- What stands behind the source. -/
def arrow? (t : Text) : Option (Text × Activation × Text × Text) :=
  (arrows (Text.dropBlanks t)).findSome? fun (arrow, behind) =>
    (activations behind).findSome? fun (mark, behind) =>
      (target? behind).map fun (target, lateMark, label) =>
        (arrow, if mark = .none then lateMark else mark, target, label)

/-- Reads a line as a message. -/
def ofLine? (line : Text) : Option Message :=
  match name? arrow? line with
  | none => none
  | some (source, arrow, activation, target, label) =>
      if source.isEmpty || target.isEmpty then none
      else some ⟨source, arrow, activation, target, label⟩

/-- The Mermaid line of a message: a message whose arrow points left runs from
its target to its source. -/
def toMermaid (m : Message) : Text :=
  let kind := ArrowKind.ofText m.arrow
  let (source, target) := if kind.pointsLeft then (m.target, m.source) else (m.source, m.target)
  source ++ mermaidArrow kind m.activation ++ target ++
    (if m.label.isEmpty then [.char ':'] else ": ".toText ++ m.label)

end Message

/-- The Mermaid line of a message line; `none` for another line. -/
def convertMessage? (line : Text) : Option Text :=
  (Message.ofLine? line).map Message.toMermaid

end Lifeline.PlantUml
