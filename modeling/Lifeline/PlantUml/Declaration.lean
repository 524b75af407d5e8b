import Lifeline.Text.Letter
import Lifeline.Text.Matching
import Lifeline.Text.Word

/-!
# Declarations of PlantUML

A declaration is a keyword and a name, with an alias behind `as`, a stereotype
in double angle brackets and a colour behind a number sign, each of them
optional and in this order.  Names and aliases are in double quotes, or words;
a name may be several words.  Mermaid writes the short name first and the long
one behind `as`, and knows only participants and actors.
-/

namespace Lifeline.PlantUml

/-- The keywords of declarations. -/
def declarationKeywords : List Text :=
  ["participant".toText, "actor".toText, "entity".toText, "boundary".toText,
    "control".toText, "database".toText, "collections".toText, "queue".toText]

/-- A name, with or without quotes. -/
structure Name where
  text : Text
  inQuotes : Bool
deriving DecidableEq

/-- The parts of a declaration that reach Mermaid. -/
structure Declaration where
  isActor : Bool
  name : Name
  /-- The alias. -/
  otherName? : Option Name
deriving DecidableEq

namespace Declaration

/-- A character that ends the words of a name. -/
def isMark (c : CodePoint) : Bool :=
  c == '"' || c == '#' || c == '<' || c == ':' || c == '>'

/-- A character of a word. -/
def isWordChar (c : CodePoint) : Bool :=
  !isMark c && !Text.isBlank c

/-- A character of a name of several words. -/
def isNameChar (c : CodePoint) : Bool :=
  !isMark c

/-- The alias at the beginning of a text, with `as` and white space around
it, and the text behind. -/
def readAlias? (t : Text) : Option (Name × Text) :=
  match Text.afterBlanks? t with
  | none => none
  | some word =>
      match Text.afterKeyword? "as".toText word with
      | none => none
      | some behind =>
          match Text.afterBlanks? behind with
          | none => none
          | some name =>
              match Text.quoted? name with
              | some (text, rest) => some (⟨text, true⟩, rest)
              | none =>
                  match name.span isWordChar with
                  | ([], _) => none
                  | (text, rest) => some (⟨text, false⟩, rest)

/-- The text behind an optional stereotype. -/
def skipStereotype (t : Text) : Text :=
  match Text.afterBlanks? t with
  | some ('<' :: '<' :: rest) =>
      match rest.dropWhile (· ≠ .char '>') with
      | .char '>' :: .char '>' :: behind => behind
      | _ => t
  | _ => t

/-- The text behind an optional colour. -/
def skipColour (t : Text) : Text :=
  match Text.afterBlanks? t with
  | some ('#' :: rest) =>
      match Text.word? rest with
      | some (_, behind) => behind
      | none => t
  | _ => t

/-- Nothing follows but a stereotype, a colour and white space. -/
def endsHere (t : Text) : Bool :=
  Text.isBlankText (skipColour (skipStereotype t))

/-- What stands behind the name, up to the end: the alias, if there is one. -/
def ending? (t : Text) : Option (Option Name) :=
  match readAlias? t with
  | some (name, rest) => if endsHere rest then some (some name) else none
  | none => if endsHere t then some none else none

/-- Reads the name and what stands behind it.  A name without quotes begins
with no hyphen and has as few words as the rest allows. -/
def nameAndEnding? (t : Text) : Option (Name × Option Name) :=
  match t with
  | [] => none
  | c :: rest =>
      match Text.quoted? t with
      | some (text, behind) => (ending? behind).map fun other => (⟨text, true⟩, other)
      | none =>
          if isWordChar c && c != '-' then
            (Text.fewest isNameChar ending? rest).map fun (text, other) =>
              (⟨c :: text, false⟩, other)
          else
            none

/-- Reads a line as a declaration. -/
def ofLine? (line : Text) : Option Declaration :=
  match Text.keyword? declarationKeywords line with
  | none => none
  | some (keyword, rest) =>
      match Text.afterBlanks? rest with
      | none => none
      | some rest =>
          (nameAndEnding? rest).map fun (name, other) =>
            ⟨keyword == "actor".toText, name, other⟩

/-- The Mermaid line of a declaration.  A name in words with an alias in quotes
is the short one; otherwise the alias is. -/
def toMermaid (d : Declaration) : Text :=
  let keyword := if d.isActor then "actor ".toText else "participant ".toText
  let name := Text.collapseBlanks (Text.strip d.name.text)
  match d.otherName? with
  | none => keyword ++ name
  | some other =>
      if other.inQuotes && !d.name.inQuotes then
        keyword ++ name ++ " as ".toText ++ other.text
      else
        keyword ++ other.text ++ " as ".toText ++ name

end Declaration

/-- The Mermaid line of a declaration line; `none` for another line. -/
def convertDeclaration? (line : Text) : Option Text :=
  (Declaration.ofLine? line).map Declaration.toMermaid

end Lifeline.PlantUml
