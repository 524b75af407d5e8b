import Lifeline.PlantUml.Message
import Lifeline.Text.Letter
import Lifeline.Text.Word

/-!
# Notes of PlantUML

A note on one line has a place, one or two participants and a text behind a
colon.  A note on several lines begins with a line without a colon, and ends
with a line of its own; it is left out.
-/

namespace Lifeline.PlantUml

/-- The places of notes. -/
def notePlaces : List Text :=
  ["left".toText, "right".toText, "over".toText]

/-- The parts of a note on one line.  A second participant may be empty. -/
structure Note where
  place : Text
  isOver : Bool
  first : Text
  second? : Option Text
  text : Text
deriving DecidableEq

namespace Note

/-- The text behind `note`, `hnote` or `rnote`. -/
def afterNote? (t : Text) : Option Text :=
  match t with
  | [] => none
  | c :: rest =>
      if Text.isLetter 'h' c || Text.isLetter 'r' c then
        Text.afterKeyword? "note".toText rest
      else
        Text.afterKeyword? "note".toText t

/-- The place of a note: which one, how it is written, and the text behind
it. -/
def place? (t : Text) : Option (Text × Text × Text) :=
  match afterNote? t with
  | none => none
  | some rest =>
      match Text.afterBlanks? rest with
      | none => none
      | some word =>
          (Text.keyword? notePlaces word).map fun (place, behind) =>
            (place, word.take place.length, behind)

/-- A character of a name without quotes. -/
def isNameChar (c : CodePoint) : Bool :=
  c != '"' && c != ',' && c != ':'

/-- Reads a name and what follows it.  A name without quotes is trimmed. -/
def name? {α : Type} (next : Text → Option α) (t : Text) : Option (Text × α) :=
  match Text.quoted? t with
  | some (name, rest) => (next rest).map fun a => (name, a)
  | none => (Text.fewestSome isNameChar next t).map fun (name, a) => (Text.strip name, a)

/-- A line that is not empty, trimmed. -/
def nonemptyLine? (t : Text) : Option Text :=
  match Text.line? t with
  | some (c :: rest) => some (Text.strip (c :: rest))
  | _ => none

/-- The text of a note, behind a colon. -/
def text? (t : Text) : Option Text :=
  match Text.dropBlanks t with
  | ':' :: rest => Text.most Text.isBlank nonemptyLine? rest
  | _ => none

/-- What stands behind the first participant: perhaps a second one, and the
text. -/
def ending? (t : Text) : Option (Option Text × Text) :=
  let paired :=
    match Text.dropBlanks t with
    | ',' :: rest =>
        (Text.most Text.isBlank (name? text?) rest).map fun (name, text) => (some name, text)
    | _ => none
  match paired with
  | some answer => some answer
  | none => (text? t).map fun text => (none, text)

/-- The participants and the text, perhaps behind `of`. -/
def participants? (t : Text) : Option (Text × Option Text × Text) :=
  let afterOf :=
    match Text.afterKeyword? "of".toText t with
    | some rest => Text.mostSome Text.isBlank (name? ending?) rest
    | none => none
  match afterOf with
  | some answer => some answer
  | none => name? ending? t

/-- Reads a line as a note. -/
def ofLine? (line : Text) : Option Note :=
  match place? line with
  | none => none
  | some (place, written, rest) =>
      (Text.mostSome Text.isBlank participants? rest).map fun (first, second, text) =>
        ⟨Text.lower written, place == "over".toText, first, second, text⟩

/-- The Mermaid line of a note: a line break in the text is written as a
tag. -/
def toMermaid (n : Note) : Text :=
  let text := Text.replaceAll "\\n".toText "<br/>".toText n.text
  if n.isOver then
    let targets :=
      match n.second? with
      | some second => n.first ++ .char ',' :: second
      | none => n.first
    "Note over ".toText ++ targets ++ ": ".toText ++ text
  else
    "Note ".toText ++ n.place ++ " of ".toText ++ n.first ++ ": ".toText ++ text

/-- A line begins a note, on one line or on several. -/
def begins (line : Text) : Bool :=
  match place? line with
  | some (_, _, behind) => Text.atWordEnd behind
  | none => false

/-- A line ends a note on several lines. -/
def ends (line : Text) : Bool :=
  match Text.afterKeyword? "end".toText line with
  | none => false
  | some rest =>
      match Text.afterKeyword? "note".toText (Text.dropBlanks rest) with
      | some behind => behind.isEmpty
      | none => false

end Note

/-- The Mermaid line of a note on one line; `none` for another line. -/
def convertNote? (line : Text) : Option Text :=
  (Note.ofLine? line).map Note.toMermaid

end Lifeline.PlantUml
