import Lifeline.PlantUml.Conversion

/-!
# Outlines of Mermaid diagrams

The outline of a sequence diagram is the list of its participants and the list
of its messages.  Each trimmed line is read on its own.  A name is a participant
from where it is declared or first stands at an end of a message; a later
mention changes nothing.
-/

namespace Lifeline.Mermaid

/-- A participant: its name, the label it is shown with, and its kind. -/
structure Participant where
  name : Text
  label? : Option Text
  isActor : Bool
deriving DecidableEq

/-- A message line. -/
structure Message where
  source : Text
  target : Text
  text : Text
  isResponse : Bool
deriving DecidableEq

/-- A message and its place among the messages of a diagram. -/
structure Step where
  index : Nat
  message : Message
deriving DecidableEq

/-- What a trimmed line is. -/
inductive LineKind where
  | blank
  | declaration (participant : Participant)
  | message (message : Message)
  | structural
  | unrecognized
deriving DecidableEq

/-! ## Declarations -/

/-- What stands behind the name of a participant: nothing, or `as` and a
label. -/
def label? (t : Text) : Option (Option Text) :=
  match t with
  | [] => some none
  | _ =>
      match Text.afterBlanks? t with
      | none => none
      | some word =>
          match Text.after? "as".toText word with
          | none => none
          | some rest =>
              match Text.afterBlanks? rest with
              | none => none
              | some [] => none
              | some label => some (some (Text.strip label))

/-- Reads a declaration behind an optional `create`. -/
def declarationHere? (t : Text) : Option Participant :=
  let keyword :=
    match Text.after? "participant".toText t with
    | some rest => some (false, rest)
    | none => (Text.after? "actor".toText t).map fun rest => (true, rest)
  match keyword with
  | none => none
  | some (isActor, rest) =>
      match Text.afterBlanks? rest with
      | none => none
      | some rest =>
          (Text.fewestSome (fun _ => true) label? rest).map fun (name, label) =>
            ⟨Text.strip name, label, isActor⟩

/-- Reads a trimmed line as a declaration. -/
def declaration? (line : Text) : Option Participant :=
  match Text.after? "create".toText line with
  | none => declarationHere? line
  | some rest =>
      match Text.afterBlanks? rest with
      | none => none
      | some rest => declarationHere? rest

/-! ## Messages -/

/-- The arrows, a longer one before those that it begins with. -/
def arrows : List Text :=
  ["-->>".toText, "->>".toText, "-->".toText, "->".toText, "--x".toText, "-x".toText,
    "--)".toText, "-)".toText]

/-- The target at the beginning of a text and the label behind its colon.  A
target has at least one character, which may be white space. -/
def targetAndText? (t : Text) : Option (Text × Text) :=
  match Text.cutAt? ':' t with
  | some (c :: target, text) => some (Text.strip (c :: target), Text.strip text)
  | _ => none

/-- What stands behind the arrow; a sign in front of the target belongs to the
arrow unless nothing else stands before the colon. -/
def behindArrow? (t : Text) : Option (Text × Text) :=
  match t with
  | [] => none
  | c :: rest =>
      if c = '+' ∨ c = '-' then
        match targetAndText? rest with
        | some answer => some answer
        | none => targetAndText? t
      else
        targetAndText? t

/-- What stands behind the source. -/
def behindSource? (t : Text) : Option (Text × Text × Text) :=
  let t := Text.dropBlanks t
  arrows.findSome? fun arrow =>
    match Text.after? arrow t with
    | none => none
    | some rest => (behindArrow? rest).map fun (target, text) => (arrow, target, text)

/-- Reads a trimmed line as a message. -/
def message? (line : Text) : Option Message :=
  (Text.fewestSome (· ≠ ':') behindSource? line).map fun (source, arrow, target, text) =>
    ⟨Text.strip source, target, text, (Text.after? "--".toText arrow).isSome⟩

/-! ## Other lines -/

/-- The words that begin a line without participants and messages. -/
def structuralWords : List Text :=
  ["sequencediagram".toText, "autonumber".toText, "title".toText, "loop".toText,
    "alt".toText, "else".toText, "opt".toText, "par".toText, "and".toText,
    "critical".toText, "break".toText, "rect".toText, "box".toText, "end".toText,
    "activate".toText, "deactivate".toText, "destroy".toText]

/-- A line is known and names no participant. -/
def isStructural (line : Text) : Bool :=
  (Text.after? "%%".toText line).isSome ||
    (match Text.afterKeyword? "note".toText line with
      | some rest => (Text.afterBlanks? rest).isSome
      | none => false) ||
    structuralWords.any fun word =>
      match Text.afterKeyword? word line with
      | some rest => Text.atWordEnd rest
      | none => false

/-- What a trimmed line is. -/
def LineKind.ofLine (line : Text) : LineKind :=
  if line.isEmpty then
    .blank
  else
    match declaration? line with
    | some p => .declaration p
    | none =>
        match message? line with
        | some m => .message m
        | none => if isStructural line then .structural else .unrecognized

/-! ## Outlines -/

/-- The participants that a line mentions, in order. -/
def LineKind.mentions : LineKind → List Participant
  | .declaration p => [p]
  | .message m => [⟨m.source, none, false⟩, ⟨m.target, none, false⟩]
  | _ => []

/-- The message of a line. -/
def LineKind.message? : LineKind → Option Message
  | .message m => some m
  | _ => none

/-- Adds a participant to a list unless it has no name or the name is there. -/
def addParticipant (known : List Participant) (p : Participant) : List Participant :=
  if p.name.isEmpty || known.any fun q => q.name == p.name then known else known ++ [p]

/-- The participants and messages of a diagram. -/
structure Outline where
  participants : List Participant
  steps : List Step
deriving DecidableEq

/-- What the lines of a diagram are. -/
def lineKinds (code : Text) : List LineKind :=
  (PlantUml.trimmedLines code).map LineKind.ofLine

/-- The participants in order of first mention. -/
def participants (code : Text) : List Participant :=
  ((lineKinds code).flatMap LineKind.mentions).foldl addParticipant []

/-- The messages in order. -/
def messages (code : Text) : List Message :=
  (lineKinds code).filterMap LineKind.message?

/-- The messages with their places, counted from a number. -/
def numberedFrom (index : Nat) : List Message → List Step
  | [] => []
  | m :: rest => ⟨index, m⟩ :: numberedFrom (index + 1) rest

/-- The outline of a diagram; lines that are not recognised are passed over. -/
def outline (code : Text) : Outline :=
  ⟨participants code, numberedFrom 0 (messages code)⟩

/-- The first trimmed line that is not recognised; `number` is the number of
the first line. -/
def firstUnrecognized? : Nat → List Text → Option UnrecognizedLine
  | _, [] => none
  | number, line :: rest =>
      if LineKind.ofLine line = .unrecognized then some ⟨line, number⟩
      else firstUnrecognized? (number + 1) rest

/-- The outline of a diagram, all lines of which are recognised. -/
def outlineStrict (code : Text) : Except UnrecognizedLine Outline :=
  match firstUnrecognized? 1 (PlantUml.trimmedLines code) with
  | some e => .error e
  | none => .ok (outline code)

/-- Outlines strictly or leniently. -/
def outlineWith (strict : Bool) (code : Text) : Except UnrecognizedLine Outline :=
  if strict then outlineStrict code else .ok (outline code)

/-- The Mermaid text and the outline of a diagram in the named syntax. -/
def readDiagram (strict : Bool) (mode code : Text) : Except UnrecognizedLine (Text × Outline) :=
  match mermaidOf strict mode code with
  | .error e => .error e
  | .ok mermaid =>
      match outlineWith strict mermaid with
      | .error e => .error e
      | .ok o => .ok (mermaid, o)

/-! ## Records and captions -/

/-- The key under which a tooltip of a message is kept. -/
def Step.key (s : Step) : Text :=
  "msg-".toText ++ Text.ofNat s.index

/-- The caption of a message that has no tooltip. -/
def Step.caption (s : Step) : Text :=
  s.message.source ++
    (if s.message.isResponse then " replies to ".toText else " sends to ".toText) ++
      s.message.target ++ ": ".toText ++ s.message.text

/-- The tooltip of a message, whatever its kind, or else the caption. -/
def Step.description (tooltips : List (Text × Json)) (s : Step) : Json :=
  match Json.givenField? tooltips s.key with
  | some v => v
  | none => .str s.caption

/-- A message with its description. -/
def Step.describe (tooltips : List (Text × Json)) (s : Step) : Json :=
  .obj [("text".toText, .str s.message.text), ("description".toText, s.description tooltips)]

/-- The descriptions of messages.  Tooltips are an object or a void value;
another value is refused as soon as a message looks for its tooltip. -/
def describeSteps? (steps : List Step) (tooltips : Json) : Option (List Json) :=
  match tooltips.fieldsOrVoid? with
  | some fields => some (steps.map (Step.describe fields))
  | none => if steps.isEmpty then some [] else none

/-- A participant as an object. -/
def Participant.toJson (p : Participant) : Json :=
  .obj
    [("name".toText, .str p.name),
      ("label".toText, match p.label? with | some l => .str l | none => .null),
      ("kind".toText, .str (if p.isActor then "actor".toText else "participant".toText))]

/-- A message as an object. -/
def Step.toJson (s : Step) : Json :=
  .obj
    [("id".toText, .str s.key), ("sequenceIndex".toText, .int s.index),
      ("from".toText, .str s.message.source), ("to".toText, .str s.message.target),
      ("text".toText, .str s.message.text), ("isResponse".toText, .bool s.message.isResponse)]

/-- The fields of an outline. -/
def Outline.toFields (o : Outline) : List (Text × Json) :=
  [("participants".toText, .arr (o.participants.map Participant.toJson)),
    ("messages".toText, .arr (o.steps.map Step.toJson))]

end Lifeline.Mermaid
