import Lifeline.Text.Lines

/-!
# Shortcuts for the words of sequence diagrams

Frequent keywords and arrows are replaced by two-character tokens, a tilde and
one more character.  The table is worked from top to bottom, so that longer
arrows, and keywords that contain others, come first; tokens are expanded from
bottom to top.  No token begins another one, and no second character of a token
begins a long form.
-/

namespace Lifeline.Share

/-- A long form and the token that stands for it. -/
structure Shortcut where
  full : Text
  short : Text
deriving DecidableEq

namespace Shortcut

/-- The table of shortcuts. -/
def table : List Shortcut :=
  [⟨"sequenceDiagram".toText, "~S".toText⟩,
    ⟨"participant".toText, "~P".toText⟩,
    ⟨"actor".toText, "~A".toText⟩,
    ⟨"deactivate".toText, "~D".toText⟩,
    ⟨"activate".toText, "~V".toText⟩,
    ⟨"Note left of".toText, "~L".toText⟩,
    ⟨"Note right of".toText, "~R".toText⟩,
    ⟨"Note over".toText, "~O".toText⟩,
    ⟨"loop".toText, "~W".toText⟩,
    ⟨"alt".toText, "~T".toText⟩,
    ⟨"else".toText, "~E".toText⟩,
    ⟨"opt".toText, "~Q".toText⟩,
    ⟨"par".toText, "~Y".toText⟩,
    ⟨"and".toText, "~J".toText⟩,
    ⟨"rect".toText, "~X".toText⟩,
    ⟨"end".toText, "~Z".toText⟩,
    ⟨"-->>>".toText, "~4".toText⟩,
    ⟨"->>>".toText, "~3".toText⟩,
    ⟨"-->>".toText, "~2".toText⟩,
    ⟨"->>".toText, "~1".toText⟩,
    ⟨"-->".toText, "~6".toText⟩,
    ⟨"->".toText, "~5".toText⟩]

/-- Replaces every long form by its token, in the order of the table. -/
def substitute (t : Text) : Text :=
  table.foldl (fun u s => Text.replaceAll s.full s.short u) t

/-- Replaces every token by its long form, against the order of the table. -/
def restore (t : Text) : Text :=
  table.foldr (fun s u => Text.replaceAll s.short s.full u) t

/-- The text contains a token of the table. -/
def hasToken (t : Text) : Bool :=
  table.any fun s => Text.contains s.short t

end Shortcut
end Lifeline.Share
