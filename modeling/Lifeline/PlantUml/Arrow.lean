import Lifeline.Text.Matching
import Lifeline.Text.Search

/-!
# Arrows of PlantUML

A shaft is one dash or two, and a colour in square brackets may stand behind the
first.  An arrow that points right ends in one or two heads, one that points
left begins with one or two and may have heads on both ends.  Mermaid knows only
arrows that point right, so an arrow that points left swaps the two sides of its
message.
-/

namespace Lifeline.PlantUml

/-- What an arrow says: its direction and the kind of its line. -/
structure ArrowKind where
  pointsLeft : Bool
  dashed : Bool
deriving DecidableEq

/-- What a message does to the activation of its target. -/
inductive Activation where
  | none
  | start
  | stop
deriving DecidableEq

/-- The colour in square brackets at the beginning of a text: the bracket, the
number sign, at least one character, and the closing bracket.  Gives the rest. -/
def afterColour? : Text → Option Text
  | '[' :: '#' :: c :: rest =>
      if c = ']' then none else (Text.cutAt? ']' rest).map Prod.snd
  | _ => none

/-- A colour at the beginning of a text, by its length. -/
def colourHere? (t : Text) : Option (Nat × Unit) :=
  (afterColour? t).map fun rest => (t.length - rest.length, ())

/-- A text without its colours. -/
def dropColours (t : Text) : Text :=
  (Text.pieces colourHere? t).flatMap (Text.Piece.text fun _ => [])

/-- What an arrow says. -/
def ArrowKind.ofText (arrow : Text) : ArrowKind :=
  let core := dropColours (Text.strip arrow)
  ⟨(Text.after? ['<'] core).isSome, Text.contains "--".toText core⟩

/-- The mark of an activation behind an arrow or a name. -/
def Activation.ofMark (mark : Text) : Activation :=
  if mark = "++".toText then .start else if mark = "--".toText then .stop else .none

/-- The Mermaid arrow. -/
def mermaidArrow (kind : ArrowKind) (activation : Activation) : Text :=
  (if kind.dashed then "-->>".toText else "->>".toText) ++
    match activation with
    | .none => []
    | .start => ['+']
    | .stop => ['-']

/-! ## Reading

A reader of a part gives every way to read it, the preferred one first, each
with the text behind it. -/

/-- The text behind an optional character, preferably present. -/
def optionalChar (c : CodePoint) : Text → List Text
  | [] => [[]]
  | d :: rest => if d = c then [rest, d :: rest] else [d :: rest]

/-- The ways to read a shaft. -/
def shafts : Text → List Text
  | '-' :: rest =>
      (match afterColour? rest with
        | some behind => optionalChar '-' behind
        | none => []) ++ optionalChar '-' rest
  | _ => []

/-- The ways to read an arrow, by the text behind it. -/
def arrowEnds : Text → List Text
  | '<' :: rest =>
      (optionalChar '<' rest).flatMap fun u =>
        (shafts u).flatMap fun v =>
          match v with
          | '>' :: '>' :: w => [w, '>' :: w, v]
          | '>' :: w => [w, v]
          | _ => [v]
  | t =>
      (shafts t).flatMap fun v =>
        match v with
        | '>' :: w => optionalChar '>' w
        | _ => []

/-- The text begins with an arrow. -/
def beginsWithArrow (t : Text) : Bool :=
  !(arrowEnds t).isEmpty

/-- The ways to read an arrow: its text and the text behind it. -/
def arrows (t : Text) : List (Text × Text) :=
  (arrowEnds t).map fun behind => (t.take (t.length - behind.length), behind)

/-- A mark of activation at the beginning of a text. -/
def activation? : Text → Option (Activation × Text)
  | '+' :: '+' :: rest => some (.start, rest)
  | '-' :: '-' :: rest => some (.stop, rest)
  | _ => none

/-- The ways to read an optional mark of activation. -/
def activations (t : Text) : List (Activation × Text) :=
  match activation? t with
  | some answer => [answer, (.none, t)]
  | none => [(.none, t)]

end Lifeline.PlantUml
