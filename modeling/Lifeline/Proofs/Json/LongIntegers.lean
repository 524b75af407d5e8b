import Lifeline.Proofs.Json.Parsed
import Lifeline.Proofs.Json.Refusals

/-!
# Integers that are too long

A text is refused for the length of an integer, and not as malformed, only when it has
more digits in a row than an integer may have (`hasLongDigits_of_parse`), and an integer
with so many digits is refused for it.  The integer at which a reader stops stands in
the text, however deep it is inside arrays and objects.
-/

namespace Lifeline.Json

variable {t rest : Text} {negative : Bool}

/-- More digits stand in a row than an integer may have. -/
def HasLongDigits (t : Text) : Prop :=
  ∃ digits, digits <:+: t ∧ AllDigits digits ∧ maxIntegerDigits < digits.length

theorem HasLongDigits.of_suffix (h : HasLongDigits rest) (hrest : rest <:+ t) :
    HasLongDigits t := by
  obtain ⟨digits, hdigits, hall, hlength⟩ := h
  exact ⟨digits, hdigits.trans hrest.isInfix, hall, hlength⟩

/-! ## Refusals -/

theorem hasLongDigits_of_number (h : number negative t = .error .longInteger) :
    HasLongDigits t := by
  unfold number at h
  split at h
  · cases h
  · rename_i whole behind hwhole
    split at h
    split at h
    · cases h
    split at h
    · cases h
    split at h
    · rename_i hlength
      refine ⟨whole, ⟨[], behind, ?_⟩, (allDigits_of_wholeDigits? hwhole).1, hlength⟩
      exact (eq_append_of_wholeDigits? hwhole).symm
    · cases h

theorem hasLongDigits_of_scalarValue (h : scalarValue t = .error .longInteger) :
    HasLongDigits t := by
  unfold scalarValue at h
  split at h
  · cases h
  · split at h
    · exact (hasLongDigits_of_number h).of_suffix (List.suffix_cons _ _)
    · exact hasLongDigits_of_number h

theorem traced_longInteger : Traced .longInteger fun _ t => HasLongDigits t where
  tooDeep h := by contradiction
  scalar := hasLongDigits_of_scalarValue
  inside _ h := h.of_suffix (List.suffix_cons _ _)
  suffix := HasLongDigits.of_suffix

/-- Only a text with that many digits in a row is refused for the length of an integer. -/
theorem hasLongDigits_of_parse [Stack] (h : parse t = .error .longInteger) : HasLongDigits t :=
  traced_longInteger.of_parse (by decide) h

/-- An integer that is too long is refused for its length. -/
theorem parse_of_isWhole [Stack] (hwhole : IsWhole t) (hlength : maxIntegerDigits < t.length) :
    parse t = .error .longInteger := by
  have hnumber : number false t = .error .longInteger := by
    have hdigits := wholeDigits?_append hwhole closed_nil.digitsEnd
    rw [List.append_nil] at hdigits
    have hfraction : fraction [] = ([], []) := rfl
    have hexponent : exponent? [] = none := rfl
    simp only [number, hdigits, hfraction, hexponent, if_pos hlength]
    rfl
  obtain ⟨c, u, rfl, hc⟩ : ∃ c u, t = c :: u ∧ isDigit c = true := by
    cases hwhole with
    | zero => exact ⟨'0', [], rfl, rfl⟩
    | cons hc hzero hdigits => exact ⟨_, _, rfl, hc⟩
  have hscalar : scalarValue (c :: u) = number false (c :: u) := scalarValue_signed false hc
  have hstart : skipSpace (c :: u) = c :: u := skipSpace_cons (IsNumberStart.ne (Or.inl hc)).1
  unfold parse
  rw [hstart, value_eq_scalarValue (Or.inl hc), hscalar, hnumber]

end Lifeline.Json
