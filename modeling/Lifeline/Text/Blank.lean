import Lifeline.Text.CodePoint

/-!
# White space

This module fixes the white space characters and the trimming that the line readers start from.
-/

namespace Lifeline.Text

/-- The white space characters: the ASCII controls from tab to carriage return
and from file to unit separator, the space, and the Unicode separators. -/
def isBlank (c : CodePoint) : Bool :=
  let n := c.toNat
  (9 ≤ n && n ≤ 13) || (28 ≤ n && n ≤ 32) || n == 0x85 || n == 0xA0 || n == 0x1680 ||
    (0x2000 ≤ n && n ≤ 0x200A) || n == 0x2028 || n == 0x2029 || n == 0x202F ||
    n == 0x205F || n == 0x3000

/-- Drops the white space in front. -/
def dropBlanks (t : Text) : Text :=
  t.dropWhile isBlank

/-- Drops the white space at the end. -/
def dropBlanksEnd (t : Text) : Text :=
  (t.reverse.dropWhile isBlank).reverse

/-- Drops the white space on both sides. -/
def strip (t : Text) : Text :=
  dropBlanksEnd (dropBlanks t)

/-- Drops a run of one or more white space characters; `none` when the text
does not begin with one. -/
def afterBlanks? : Text → Option Text
  | [] => none
  | c :: rest => if isBlank c then some (dropBlanks rest) else none

/-- A text holds nothing but white space. -/
def isBlankText (t : Text) : Bool :=
  t.all isBlank

/-- Each run of white space becomes one space.  The flag says whether the
character before was white space. -/
def collapseFrom : Bool → Text → Text
  | _, [] => []
  | inRun, c :: rest =>
      if isBlank c then
        if inRun then collapseFrom true rest else ' ' :: collapseFrom true rest
      else
        c :: collapseFrom false rest

/-- Each run of white space becomes one space. -/
def collapseBlanks (t : Text) : Text :=
  collapseFrom false t

/-! ## Small facts about trimming -/

@[simp] theorem strip_nil : strip [] = [] := rfl

theorem dropBlanks_cons_of_isBlank {c : CodePoint} (t : Text) (h : isBlank c = true) :
    dropBlanks (c :: t) = dropBlanks t := by
  simp [dropBlanks, h]

theorem dropBlanks_cons_of_not_isBlank {c : CodePoint} (t : Text) (h : isBlank c = false) :
    dropBlanks (c :: t) = c :: t := by
  simp [dropBlanks, h]

theorem afterBlanks?_cons_of_isBlank {c : CodePoint} (t : Text) (h : isBlank c = true) :
    afterBlanks? (c :: t) = some (dropBlanks t) := by
  simp [afterBlanks?, h]

theorem afterBlanks?_cons_of_not_isBlank {c : CodePoint} (t : Text) (h : isBlank c = false) :
    afterBlanks? (c :: t) = none := by
  simp [afterBlanks?, h]

end Lifeline.Text
