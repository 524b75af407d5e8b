import Lifeline.Text.Blank

/-!
# Reading with alternatives

A name in a diagram line ends where the rest of the line makes sense, so a
reader hands the text behind a candidate to the reader of the rest and tries
another candidate when that one declines.  `fewest` tries short candidates
first, `most` long ones.
-/

namespace Lifeline.Text

/-- The fewest characters of a class, none at first, behind which `next` reads
the rest; together with what it reads. -/
def fewest {α : Type} (inClass : CodePoint → Bool) (next : Text → Option α) :
    Text → Option (Text × α)
  | [] => (next []).map fun a => ([], a)
  | c :: rest =>
      match next (c :: rest) with
      | some a => some ([], a)
      | none =>
          if inClass c then
            (fewest inClass next rest).map fun (taken, a) => (c :: taken, a)
          else
            none

/-- As `fewest`, with at least one character. -/
def fewestSome {α : Type} (inClass : CodePoint → Bool) (next : Text → Option α) :
    Text → Option (Text × α)
  | [] => none
  | c :: rest =>
      if inClass c then
        (fewest inClass next rest).map fun (taken, a) => (c :: taken, a)
      else
        none

/-- The most characters of a class behind which `next` reads the rest, and what
it reads. -/
def most {α : Type} (inClass : CodePoint → Bool) (next : Text → Option α) : Text → Option α
  | [] => next []
  | c :: rest =>
      if inClass c then
        match most inClass next rest with
        | some a => some a
        | none => next (c :: rest)
      else
        next (c :: rest)

/-- As `most`, with at least one character. -/
def mostSome {α : Type} (inClass : CodePoint → Bool) (next : Text → Option α) : Text → Option α
  | [] => none
  | c :: rest => if inClass c then most inClass next rest else none

/-- A text in double quotes at the beginning, nonempty and without a quote
inside; with the rest behind the closing quote. -/
def quoted? : Text → Option (Text × Text)
  | '"' :: rest =>
      match rest.span (· ≠ .char '"') with
      | (_ :: _, []) => none
      | ([], _) => none
      | (c :: body, _ :: behind) => some (c :: body, behind)
  | _ => none

/-! ## Small facts -/

/-- What `fewest` takes and leaves: the rest is read by `next`, and the taken
characters are of the class. -/
theorem fewest_eq_some {α : Type} {inClass : CodePoint → Bool} {next : Text → Option α}
    {t taken : Text} {a : α} (h : fewest inClass next t = some (taken, a)) :
    ∃ rest, t = taken ++ rest ∧ next rest = some a ∧ taken.all inClass = true := by
  induction t generalizing taken with
  | nil =>
      simp only [fewest, Option.map_eq_some_iff, Prod.mk.injEq] at h
      obtain ⟨b, hb, rfl, rfl⟩ := h
      exact ⟨[], by simp, hb, rfl⟩
  | cons c u ih =>
      unfold fewest at h
      split at h
      · rename_i b hb
        cases h
        exact ⟨c :: u, by simp, hb, rfl⟩
      · split at h
        · rename_i hc
          simp only [Option.map_eq_some_iff, Prod.mk.injEq] at h
          obtain ⟨⟨taken', b⟩, hb, rfl, rfl⟩ := h
          obtain ⟨rest, hu, hr, hall⟩ := ih hb
          exact ⟨rest, by simp [hu], hr, by simp [hc, hall]⟩
        · exact absurd h (by simp)

end Lifeline.Text
