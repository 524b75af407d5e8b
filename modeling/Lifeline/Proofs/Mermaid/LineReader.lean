import Lifeline.Mermaid.Outline

/-!
# Readers that go through the lines of a diagram

The converter and the outline both take the trimmed lines of a diagram one after the
other, the first in a mode that changes from line to line and the second with nothing in
mind.  A strict one stops at the first line that it does not know.  What can be said of
that line without knowing which of the two is reading is said here once.
-/

namespace Lifeline

variable {σ : Type}

/-- A reader that goes through the trimmed lines of a text: what it has in mind before the
first line and behind each line, and the lines that it knows. -/
structure LineReader (σ : Type) where
  start : σ
  next : σ → Text → σ
  knows : σ → Text → Bool

namespace LineReader

variable {r : LineReader σ} {s : σ} {number : Nat} {ls : List Text} {e : UnrecognizedLine}

/-- What the reader has in mind behind some lines. -/
def after (r : LineReader σ) (ls : List Text) : σ :=
  ls.foldl r.next r.start

/-- The first line that is not known; `number` is the number of the first line. -/
def refused? (r : LineReader σ) : σ → Nat → List Text → Option UnrecognizedLine
  | _, _, [] => none
  | s, number, line :: rest =>
      if r.knows s line then refused? r (r.next s line) (number + 1) rest else some ⟨line, number⟩

theorem refused?_eq_none_iff : r.refused? s number ls = none ↔
    ∀ before line behind, ls = before ++ line :: behind →
      r.knows (before.foldl r.next s) line = true := by
  -- By induction on the lines: the state at a line is the one after the lines in front of it.
  induction ls generalizing s number with
  | nil => simp [refused?]
  | cons l ls ih =>
      rw [refused?]
      constructor
      · intro h before line behind hls
        split at h
        · rename_i hknown
          cases before with
          | nil =>
              obtain ⟨rfl, -⟩ := List.cons.inj hls
              exact hknown
          | cons b before =>
              obtain ⟨rfl, htail⟩ := List.cons.inj hls
              exact ih.mp h before line behind htail
        · contradiction
      · intro h
        have hfirst : r.knows s l = true := h [] l ls rfl
        rw [if_pos hfirst, ih]
        intro before line behind hls
        exact h (l :: before) line behind (by rw [hls, List.cons_append])

/-- The line that is refused is not known, and all lines before it are. -/
theorem exists_of_refused? (h : r.refused? s number ls = some e) :
    ∃ before line behind, ls = before ++ line :: behind ∧ e = ⟨line, number + before.length⟩ ∧
      r.refused? s 1 before = none ∧ r.knows (before.foldl r.next s) line = false := by
  induction ls generalizing s number with
  | nil => contradiction
  | cons l ls ih =>
      rw [refused?] at h
      split at h
      · rename_i hknown
        obtain ⟨before, line, behind, rfl, rfl, hbefore, hline⟩ := ih h
        refine ⟨l :: before, line, behind, rfl, ?_, ?_, hline⟩
        · rw [List.length_cons, Nat.add_assoc, Nat.add_comm 1]
        · -- The numbers of the lines do not matter for whether they are known.
          rw [refused?_eq_none_iff] at hbefore
          rw [refused?, if_pos hknown, refused?_eq_none_iff]
          exact hbefore
      · rename_i hunknown
        exact ⟨[], l, ls, rfl, (Option.some.inj h).symm, rfl, eq_false_of_ne_true hunknown⟩

/-- A reader that takes no notice of blank lines refuses the same line without them. -/
theorem line_refused?_filter (hblank : ∀ s, r.knows s [] = true ∧ r.next s [] = s)
    (s : σ) (ls : List Text) (number other : Nat) :
    (r.refused? s number (ls.filter fun l => !l.isEmpty)).map UnrecognizedLine.line =
      (r.refused? s other ls).map UnrecognizedLine.line := by
  induction ls generalizing s number other with
  | nil => rfl
  | cons l ls ih =>
      cases l with
      | nil =>
          rw [List.filter_cons_of_neg (by decide), refused?, if_pos (hblank s).1, (hblank s).2]
          exact ih s number (other + 1)
      | cons c l =>
          rw [List.filter_cons_of_pos rfl, refused?, refused?]
          split
          · exact ih _ (number + 1) (other + 1)
          · rfl

theorem refused?_append (r : LineReader σ) (s : σ) (number : Nat) (before behind : List Text) :
    r.refused? s number (before ++ behind) = match r.refused? s number before with
      | some e => some e
      | none => r.refused? (before.foldl r.next s) (number + before.length) behind := by
  induction before generalizing s number with
  | nil => rfl
  | cons l before ih =>
      rw [List.cons_append, refused?, refused?]
      split
      · rw [ih, List.foldl_cons, List.length_cons, Nat.add_right_comm, Nat.add_assoc]
      · rfl

/-- Which line is refused does not depend on how the lines are numbered. -/
theorem line_refused?_congr (r : LineReader σ) (s : σ) (number other : Nat) (ls : List Text) :
    (r.refused? s number ls).map UnrecognizedLine.line =
      (r.refused? s other ls).map UnrecognizedLine.line := by
  induction ls generalizing s number other with
  | nil => rfl
  | cons l ls ih =>
      rw [refused?, refused?]
      split
      · exact ih _ (number + 1) (other + 1)
      · rfl

/-- Lines that are known and leave what the reader has in mind may be put in. -/
theorem line_refused?_insert {before region : List Text}
    (hmind : region.foldl r.next (before.foldl r.next s) = before.foldl r.next s)
    (hknown : ∀ number, r.refused? (before.foldl r.next s) number region = none)
    (behind : List Text) (number : Nat) :
    (r.refused? s number (before ++ (region ++ behind))).map UnrecognizedLine.line =
      (r.refused? s number (before ++ behind)).map UnrecognizedLine.line := by
  rw [refused?_append, refused?_append r s number before]
  cases r.refused? s number before with
  | some e => rfl
  | none =>
      rw [refused?_append, hknown, hmind]
      exact line_refused?_congr r _ _ _ behind

end LineReader

/-! ## Conversion -/

namespace PlantUml

theorem verdicts_cons (mode : Mode) (line : Text) (ls : List Text) :
    verdicts mode (line :: ls) = (step mode line).2 :: verdicts (step mode line).1 ls := rfl

theorem verdicts_append (mode : Mode) (before behind : List Text) :
    verdicts mode (before ++ behind) =
      verdicts mode before ++ verdicts (modeAfter mode before) behind := by
  induction before generalizing mode with
  | nil => rfl
  | cons l before ih =>
      rw [List.cons_append, verdicts_cons, verdicts_cons, List.cons_append, ih]
      rfl

/-- The converter as a reader of lines. -/
def converter : LineReader Mode where
  start := .neutral
  next := fun mode line => (step mode line).1
  knows := fun mode line => decide ((step mode line).2 ≠ .unrecognized)

theorem modeAfter_eq_foldl (mode : Mode) (ls : List Text) :
    modeAfter mode ls = ls.foldl converter.next mode := by
  induction ls generalizing mode with
  | nil => rfl
  | cons l ls ih => exact ih (step mode l).1

theorem modeAfter_append (mode : Mode) (before behind : List Text) :
    modeAfter mode (before ++ behind) = modeAfter (modeAfter mode before) behind := by
  rw [modeAfter_eq_foldl, modeAfter_eq_foldl, modeAfter_eq_foldl, List.foldl_append]

theorem firstUnrecognized?_eq (mode : Mode) (number : Nat) (ls : List Text) :
    firstUnrecognized? number ls (verdicts mode ls) = converter.refused? mode number ls := by
  induction ls generalizing mode number with
  | nil => rfl
  | cons l ls ih =>
      have hlater := ih (step mode l).1 (number + 1)
      rw [verdicts_cons, LineReader.refused?]
      cases hverdict : (step mode l).2 with
      | dropped => simpa [firstUnrecognized?, converter, hverdict] using hlater
      | converted m => simpa [firstUnrecognized?, converter, hverdict] using hlater
      | unrecognized => simp [firstUnrecognized?, converter, hverdict]

end PlantUml

/-! ## Outlines -/

namespace Mermaid

/-- The reader of outlines, which has nothing in mind between two lines. -/
def outliner : LineReader Unit where
  start := ()
  next := fun _ _ => ()
  knows := fun _ line => decide (LineKind.ofLine line ≠ .unrecognized)

theorem firstUnrecognized?_eq (number : Nat) (ls : List Text) :
    firstUnrecognized? number ls = outliner.refused? () number ls := by
  induction ls generalizing number with
  | nil => rfl
  | cons l ls ih =>
      rw [firstUnrecognized?, LineReader.refused?, ih]
      by_cases hkind : LineKind.ofLine l = .unrecognized
      · simp [outliner, hkind]
      · simp [outliner, hkind]

end Mermaid
end Lifeline
