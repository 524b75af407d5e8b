import Lifeline.Text.Search

/-!
# Lines

Lines end at the line feed and nowhere else.  A text without a line feed is one
line, also when it is empty.
-/

namespace Lifeline.Text

/-- The lines of a text. -/
def lines (t : Text) : List Text :=
  splitWhere (· == '\n') t

/-- The pieces with `separator` between them. -/
def join (separator : Text) : List Text → Text
  | [] => []
  | [piece] => piece
  | piece :: next :: pieces => piece ++ (separator ++ join separator (next :: pieces))

/-- The text whose lines are given. -/
def unlines (ls : List Text) : Text :=
  join ['\n'] ls

/-- Trims every line and drops the blank ones. -/
def compactLines (t : Text) : Text :=
  unlines (((lines t).map strip).filter fun l => !l.isEmpty)

/-- The rest of a text read as one line: everything up to the end, or up to a
line feed that is the last character.  `none` when another line follows. -/
def line? : Text → Option Text
  | [] => some []
  | c :: rest =>
      if c = '\n' then
        if rest.isEmpty then some [] else none
      else
        (line? rest).map (c :: ·)

/-- Every line end becomes a line feed: a carriage return together with the
line feed behind it, or alone.  The flag says that the character before was a
carriage return. -/
def unifyLineEndsFrom : Bool → Text → Text
  | _, [] => []
  | afterReturn, c :: rest =>
      if c = '\r' then
        '\n' :: unifyLineEndsFrom true rest
      else if c = '\n' && afterReturn then
        unifyLineEndsFrom false rest
      else
        c :: unifyLineEndsFrom false rest

/-- Every line end, written in any of the three usual ways, becomes a line
feed. -/
def unifyLineEnds (t : Text) : Text :=
  unifyLineEndsFrom false t

/-! ## Small facts -/

theorem lines_append_cons (s t : Text) :
    lines (s ++ .char '\n' :: t) = lines s ++ lines t :=
  splitWhere_append_cons (by simp) s t

@[simp] theorem line?_nil : line? [] = some [] := rfl

theorem line?_eq_some_self {t : Text} (h : .char '\n' ∉ t) : line? t = some t := by
  induction t with
  | nil => rfl
  | cons c u ih =>
      simp only [List.mem_cons, not_or] at h
      simp [line?, Ne.symm h.1, ih h.2]

end Lifeline.Text
