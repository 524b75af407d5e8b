import Lifeline.Proofs.Json.Prefix

/-!
# What reading leaves behind

What a reader leaves of a text is an ending of it, for every part of the grammar.
-/

namespace Lifeline.Json

variable {fuel room : Nat} {t u rest digits s : Text} {c : CodePoint} {v : Json} {negative : Bool}
  {e : Int}

/-! ## What is left of a number -/

theorem skipSpace_suffix (t : Text) : skipSpace t <:+ t :=
  List.dropWhile_suffix isSpace

theorem suffix_of_skipSpace (h : skipSpace t = c :: u) : u <:+ t := by
  have hsuffix := skipSpace_suffix t
  rw [h] at hsuffix
  exact (List.suffix_cons c u).trans hsuffix

theorem eq_append_of_wholeDigits? (h : wholeDigits? t = some (digits, rest)) :
    t = digits ++ rest := by
  cases t with
  | nil => contradiction
  | cons c u =>
      unfold wholeDigits? at h
      simp only at h
      split at h
      · obtain ⟨rfl, rfl⟩ : [c] = digits ∧ u = rest := by simpa using h
        rfl
      split at h
      · obtain ⟨rfl, rfl⟩ : c :: u.takeWhile isDigit = digits ∧ u.dropWhile isDigit = rest := by
          simpa using h
        rw [List.cons_append, List.takeWhile_append_dropWhile]
      · contradiction

theorem fraction_suffix (t : Text) : (fraction t).2 <:+ t := by
  unfold fraction
  split
  · rename_i u
    simp only
    split
    · exact List.suffix_rfl
    · exact (List.dropWhile_suffix isDigit).trans (List.suffix_cons (.char '.') u)
  · exact List.suffix_rfl

theorem exponentSign_suffix (t : Text) : (exponentSign t).2 <:+ t := by
  unfold exponentSign
  split
  · exact List.suffix_cons _ _
  · exact List.suffix_cons _ _
  · exact List.suffix_rfl

theorem exponent?_suffix (h : exponent? t = some (e, rest)) : rest <:+ t := by
  cases t with
  | nil => contradiction
  | cons c u =>
      unfold exponent? at h
      simp only at h
      split at h
      · split at h
        · contradiction
        · obtain ⟨-, rfl⟩ := Prod.mk.inj (Option.some.inj h)
          have hsign := (exponentSign_suffix u).trans (List.suffix_cons c u)
          exact (List.dropWhile_suffix isDigit).trans hsign
      · contradiction

theorem number_suffix (h : number negative t = .ok (v, rest)) : rest <:+ t := by
  have hparts : ∀ {behind tail whole digits : Text}, wholeDigits? t = some (whole, behind) →
      fraction behind = (digits, tail) → tail <:+ t := by
    intro behind tail whole digits hwhole hfraction
    have hbehind : behind <:+ t := ⟨whole, (eq_append_of_wholeDigits? hwhole).symm⟩
    have htail := (fraction_suffix behind).trans hbehind
    rwa [hfraction] at htail
  cases number_eq_ok_iff.mp h with
  | power hwhole hfraction hexponent =>
      exact (exponent?_suffix hexponent).trans (hparts hwhole hfraction)
  | point hwhole hfraction hexponent hdigits => exact hparts hwhole hfraction
  | whole hwhole hfraction hexponent hlength => exact hparts hwhole hfraction

/-! ## What is left of a value -/

theorem scalarValue_suffix (h : scalarValue t = .ok (v, rest)) : rest <:+ t := by
  rcases scalarValue_cases h with ⟨word, -, rfl, -⟩ | ⟨negative, u, rfl, hnumber⟩
  · exact List.suffix_append _ _
  · have hrest := number_suffix hnumber
    cases negative with
    | true => exact hrest.trans (List.suffix_cons _ u)
    | false => exact hrest

theorem ReadsUnits.suffix {us : List StringUnit} (h : ReadsUnits t us rest) : rest <:+ t := by
  induction h with
  | quote rest => exact List.suffix_cons _ rest
  | @code a b c d n t rest us hnumber hread ih =>
      exact ih.trans (List.suffix_append [CodePoint.char '\\', .char 'u', a, b, c, d] t)
  | @letter e c t rest us hescape hread ih =>
      exact ih.trans (List.suffix_append [CodePoint.char '\\', e] t)
  | plain hquote hplain hread ih => exact ih.trans (List.suffix_cons _ _)

theorem string?_suffix (h : string? t = some (s, rest)) : rest <:+ t := by
  obtain ⟨⟨us, behind⟩, hunits, hparts⟩ := Option.map_eq_some_iff.mp h
  obtain ⟨-, rfl⟩ := Prod.mk.inj hparts
  exact (readsUnits_of_stringUnits? hunits).suffix

theorem suffix_of_valueStep
    (hitems : ∀ {room t vs rest}, items fuel room t = .ok (vs, rest) → rest <:+ t)
    (hfields : ∀ {room t fs rest}, fields fuel room t = .ok (fs, rest) → rest <:+ t)
    (h : ValueStep fuel room t v rest) : rest <:+ t := by
  have hinside : ∀ {b c : CodePoint} {t u rest : Text}, skipSpace t = c :: u → rest <:+ c :: u →
      rest <:+ b :: t := by
    intro b c t u rest hstart hrest
    rw [← hstart] at hrest
    exact (hrest.trans (skipSpace_suffix t)).trans (List.suffix_cons b t)
  cases h with
  | string hstring => exact (string?_suffix hstring).trans (List.suffix_cons _ _)
  | emptyArray hclose => exact hinside hclose (List.suffix_cons _ _)
  | array hstart hopen hread => exact hinside hstart (hitems hread)
  | emptyObject hclose => exact hinside hclose (List.suffix_cons _ _)
  | object hstart hopen hread => exact hinside hstart (hfields hread)
  | scalar hquote hbracket hbrace hscalar => exact scalarValue_suffix hscalar

theorem suffix_of_fieldStep {f : Text × Json}
    (hvalue : ∀ {room t v rest}, value fuel room t = .ok (v, rest) → rest <:+ t)
    (h : FieldStep fuel room t f rest) : rest <:+ t := by
  cases h with
  | field hkey hcolon hread =>
      have hbehind := (hvalue hread).trans ((skipSpace_suffix _).trans (suffix_of_skipSpace hcolon))
      exact (hbehind.trans (string?_suffix hkey)).trans (List.suffix_cons _ _)

/-- What is left of a text is an ending of it. -/
theorem suffix_of_read (fuel : Nat) : HoldsOfRead fuel (fun _ t _ rest => rest <:+ t)
    (fun _ t _ rest => rest <:+ t) fun _ t _ rest => rest <:+ t := by
  refine .of_steps ?_ ?_ ?_ fuel
  · intro fuel room t v rest ih hstep
    exact suffix_of_valueStep ih.items ih.fields hstep
  · intro fuel room t vs rest ih hstep
    cases hstep with
    | last hfirst hclose => exact (suffix_of_skipSpace hclose).trans (ih.value hfirst)
    | more hfirst hcomma hlater =>
        have hbehind := (skipSpace_suffix _).trans (suffix_of_skipSpace hcomma)
        exact (ih.items hlater).trans (hbehind.trans (ih.value hfirst))
  · intro fuel room t fs rest ih hstep
    cases hstep with
    | last hfirst hclose =>
        exact (suffix_of_skipSpace hclose).trans (suffix_of_fieldStep ih.value hfirst)
    | more hfirst hcomma hlater =>
        have hbehind := (skipSpace_suffix _).trans (suffix_of_skipSpace hcomma)
        exact (ih.fields hlater).trans (hbehind.trans (suffix_of_fieldStep ih.value hfirst))

end Lifeline.Json
