import Lifeline.Text.Blank

/-!
# Letters without regard to case

Keywords of diagram lines are matched without regard to case.  All keywords are
ASCII, so only those characters matter whose lower case, or whose case folding,
is an ASCII letter: besides the ASCII capitals these are the dotted capital I,
the dotless small i, the long s and the Kelvin sign.
-/

namespace Lifeline.Text

/-- A character counts as the small ASCII letter `small`, or is that very
character. -/
def isLetter (small c : CodePoint) : Bool :=
  c.toLower == small ||
    (small == 's' && c == '\u017F') ||
    (small == 'k' && c == '\u212A') ||
    (small == 'i' && (c == '\u0130' || c == '\u0131'))

/-- The text behind a keyword, given in small letters and matched without
regard to case; `none` when the text does not begin with it. -/
def afterKeyword? : Text → Text → Option Text
  | [], t => some t
  | _ :: _, [] => none
  | w :: ws, c :: rest => if isLetter w c then afterKeyword? ws rest else none

/-- The first of several keywords that the text begins with, and the text
behind it. -/
def keyword? (keywords : List Text) (t : Text) : Option (Text × Text) :=
  keywords.findSome? fun word => (afterKeyword? word t).map fun rest => (word, rest)

/-- The small letters of a character, as far as they can be ASCII: the dotted
capital I becomes an i with a combining dot. -/
def lowerChar (c : CodePoint) : Text :=
  if c == '\u0130' then ['i', '\u0307'] else if c == '\u212A' then ['k'] else [c.toLower]

/-- A text in small letters, as far as they can be ASCII. -/
def lower (t : Text) : Text :=
  t.flatMap lowerChar

/-! ## Small facts -/

@[simp] theorem afterKeyword?_nil (t : Text) : afterKeyword? [] t = some t := by
  cases t <;> rfl

/-- A keyword is matched by exactly as many characters as it has. -/
theorem eq_take_append_of_afterKeyword? {word t rest : Text}
    (h : afterKeyword? word t = some rest) :
    t = t.take word.length ++ rest ∧ (t.take word.length).length = word.length := by
  induction word generalizing t with
  | nil =>
      simp only [afterKeyword?_nil, Option.some.injEq] at h
      simp [h]
  | cons w ws ih =>
      cases t with
      | nil => simp [afterKeyword?] at h
      | cons c u =>
          by_cases hc : isLetter w c = true
          · simp only [afterKeyword?, hc, if_true] at h
            obtain ⟨hu, hl⟩ := ih h
            simp only [List.length_cons, List.take_succ_cons, List.cons_append, List.cons.injEq,
              true_and]
            exact ⟨hu, by omega⟩
          · simp [afterKeyword?, hc] at h

end Lifeline.Text
