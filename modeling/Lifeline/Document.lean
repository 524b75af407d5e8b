import Lifeline.Path
import Lifeline.PlantUml.Conversion
import Lifeline.Text.Utf8

/-!
# Documents with PlantUML blocks

A document holds diagrams in two kinds of blocks: fenced ones, between three
backquotes with a language and three backquotes, and bare ones, between
`@startuml` and `@enduml`.  Converting a document puts a fenced Mermaid diagram
in the place of each block that is not blank, the fenced ones first, and keeps
the rest as it is.
-/

namespace Lifeline.Document

/-- A block of a document: its whole text, and the diagram inside. -/
structure Block where
  source : Text
  body : Text
deriving DecidableEq

/-- Three backquotes. -/
def fence : Text := "```".toText

/-- The text behind the last line feed of a run of white space at the
beginning. -/
def behindLastLineFeed? : Text → Option Text
  | [] => none
  | c :: rest =>
      if Text.isBlank c then
        match behindLastLineFeed? rest with
        | some behind => some behind
        | none => if c = '\n' then some rest else none
      else
        none

/-- A block with a body that begins where `opened` begins and ends at an end
mark. -/
def blockUpTo? (endMark : Text → Option Text) (t opened : Text) : Option (Nat × Block) :=
  (Text.cutWhere? endMark opened).map fun (body, behind) =>
    let length := t.length - behind.length
    (length, ⟨t.take length, body⟩)

/-- A fenced block at the beginning of a text, with its length. -/
def fencedHere? (t : Text) : Option (Nat × Block) :=
  match Text.after? fence t with
  | none => none
  | some language =>
      match Text.keyword? ["plantuml".toText, "puml".toText] language with
      | none => none
      | some (_, rest) =>
          match behindLastLineFeed? rest with
          | none => none
          | some opened => blockUpTo? (Text.after? fence) t opened

/-- A bare block at the beginning of a text, with its length.  The body begins
on the line behind the opening mark. -/
def bareHere? (t : Text) : Option (Nat × Block) :=
  match Text.afterKeyword? "@startuml".toText t with
  | none => none
  | some rest =>
      if Text.atWordEnd rest then
        match Text.cutAt? '\n' rest with
        | none => none
        | some (_, opened) => blockUpTo? (Text.afterKeyword? "@enduml".toText) t opened
      else
        none

/-- The blocks of one kind in a text. -/
def blocks (here : Text → Option (Nat × Block)) (t : Text) : List Block :=
  (Text.pieces here t).filterMap Text.Piece.found?

/-- The diagrams in a text: those of bare blocks, then those of fenced ones. -/
def diagrams (t : Text) : List Text :=
  (blocks bareHere? t ++ blocks fencedHere? t).map Block.body

/-- A fenced Mermaid block. -/
def mermaidBlock (mermaid : Text) : Text :=
  "```mermaid\n".toText ++ mermaid ++ "\n```".toText

/-- A block holds no diagram. -/
def Block.isBlank (b : Block) : Bool :=
  (Text.strip b.body).isEmpty

/-- What stands in the place of a block. -/
def Block.converted (b : Block) : Text :=
  if b.isBlank then b.source else mermaidBlock (PlantUml.convert (Text.strip b.body))

/-- Converts the blocks of one kind. -/
def convertBlocks (here : Text → Option (Nat × Block)) (t : Text) : Text :=
  (Text.pieces here t).flatMap (Text.Piece.text Block.converted)

/-- How many blocks of one kind are converted. -/
def convertedCount (here : Text → Option (Nat × Block)) (t : Text) : Nat :=
  ((blocks here t).filter fun b => !b.isBlank).length

/-- A file after its conversion, and what is reported about it. -/
structure Outcome where
  text : Text
  log : Text
deriving DecidableEq

/-- Converts the blocks of a document. -/
def convertDocument (t : Text) : Outcome :=
  if (diagrams t).isEmpty then
    ⟨t, "  ⚠ No PlantUML blocks found\n".toText⟩
  else
    let fenced := convertBlocks fencedHere? t
    ⟨convertBlocks bareHere? fenced,
      "  [convert] Converted ".toText ++
        Text.ofNat (convertedCount fencedHere? t + convertedCount bareHere? fenced) ++
          " PlantUML block(s) to Mermaid\n".toText⟩

/-! ## Files -/

/-- The endings of PlantUML files. -/
def plantUmlSuffixes : List Text :=
  [".puml".toText, ".plantuml".toText, ".pu".toText, ".wsd".toText]

/-- A file is a PlantUML diagram as a whole. -/
def isPlantUml (path : Path) : Bool :=
  plantUmlSuffixes.contains path.ending

/-- Reads the text of a file that may hold anything: what is not UTF-8 is left
out, and all line ends become line feeds. -/
def readLoosely (bytes : Bytes) : Text :=
  Text.unifyLineEnds (Utf8.decodeDropping bytes)

/-- Converts the text of a file. -/
def convertText (path : Path) (t : Text) : Outcome :=
  if isPlantUml path then ⟨PlantUml.convert t, []⟩ else convertDocument t

end Lifeline.Document
