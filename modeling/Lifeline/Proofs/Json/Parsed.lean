import Lifeline.Proofs.Json.Prefix
import Mathlib.Data.List.TakeWhile

/-!
# What is read can be written

Whatever text is read, the value that comes out is readable: the fields of an
object were put in order with distinct keys, an integer that was too long was
refused, and so was what nested too deep.
-/

namespace Lifeline.Json

variable {room : Nat} {t rest digits : Text} {v : Json} {negative : Bool}

/-! ## Integers -/

theorem toNat_of_isDigit {c : CodePoint} (hc : isDigit c = true) : c.toNat - 48 ≤ 9 := by
  simp only [isDigit, Bool.and_eq_true, decide_eq_true_eq] at hc
  have hhigh : c.toNat ≤ 57 := CodePoint.le_def.mp hc.2
  omega

theorem digitsValue_lt (hdigits : AllDigits digits) : digitsValue digits < 10 ^ digits.length := by
  induction digits with
  | nil => simp [digitsValue]
  | cons c digits ih =>
      have hc := toNat_of_isDigit (hdigits c List.mem_cons_self)
      have hlater := ih fun b hb => hdigits b (List.mem_cons_of_mem c hb)
      have hfirst : digitsValue [c] = c.toNat - 48 := by simp [digitsValue]
      have hbound : (c.toNat - 48) * 10 ^ digits.length ≤ 9 * 10 ^ digits.length :=
        Nat.mul_le_mul_right _ hc
      calc digitsValue (c :: digits)
          = digitsValue [c] * 10 ^ digits.length + digitsValue digits :=
            digitsValue_append [c] digits
        _ = (c.toNat - 48) * 10 ^ digits.length + digitsValue digits := by rw [hfirst]
        _ < 10 * 10 ^ digits.length := by omega
        _ = 10 ^ (digits.length + 1) := by rw [pow_succ, Nat.mul_comm]

theorem allDigits_of_wholeDigits? (h : wholeDigits? t = some (digits, rest)) :
    AllDigits digits ∧ digits ≠ [] := by
  cases t with
  | nil => contradiction
  | cons c u =>
      unfold wholeDigits? at h
      simp only at h
      split at h
      · rename_i hzero
        obtain ⟨rfl, -⟩ : [c] = digits ∧ u = rest := by simpa using h
        refine ⟨?_, List.cons_ne_nil _ _⟩
        rw [hzero]
        exact allDigits_replicate_zero 1
      split at h
      · rename_i hzero hdigit
        obtain ⟨rfl, -⟩ : c :: u.takeWhile isDigit = digits ∧ u.dropWhile isDigit = rest := by
          simpa using h
        refine ⟨?_, List.cons_ne_nil _ _⟩
        intro b hb
        rcases List.mem_cons.mp hb with rfl | hb
        · exact hdigit
        · exact List.mem_takeWhile_imp hb
      · contradiction

theorem readable_of_number (h : number negative t = .ok (v, rest)) : Readable room v := by
  cases number_eq_ok_iff.mp h with
  | power hwhole hfraction hexponent => exact .real _
  | point hwhole hfraction hexponent hdigits => exact .real _
  | @whole behind _ whole hwhole hfraction hexponent hlength =>
      obtain ⟨hdigits, hne⟩ := allDigits_of_wholeDigits? hwhole
      apply Readable.int
      -- The number has no more digits than it was read from.
      have hvalue : (if negative then -(digitsValue whole : Int) else digitsValue whole).natAbs =
          digitsValue whole := by
        cases negative with
        | true => simp
        | false => simp
      have hcount := (Nat.length_toDigits_le_iff (by decide) (List.length_pos_iff.mpr hne)).mpr
        (digitsValue_lt hdigits)
      rw [hvalue, Text.ofNat, List.length_map]
      exact hcount.trans hlength

/-! ## Values -/

theorem readable_of_scalarValue (h : scalarValue t = .ok (v, rest)) :
    Readable room v := by
  rcases scalarValue_cases h with ⟨word, hword, -, rfl⟩ | ⟨negative, u, -, hnumber⟩
  · simp only [words, List.mem_cons, List.not_mem_nil, or_false] at hword
    rcases hword with rfl | rfl | rfl | rfl | rfl | rfl
    · exact .null
    · exact .bool true
    · exact .bool false
    · exact .real _
    · exact .real _
    · exact .real _
  · exact readable_of_number hnumber

variable {fuel : Nat}

theorem readable_of_valueStep
    (hitems : ∀ {room t vs rest}, items fuel room t = .ok (vs, rest) → ∀ v ∈ vs, Readable room v)
    (hfields : ∀ {room t fs rest}, fields fuel room t = .ok (fs, rest) →
      ∀ f ∈ fs, Readable room f.2)
    (h : ValueStep fuel room t v rest) : Readable room v := by
  cases h with
  | string hstring => exact .str _
  | emptyArray hclose => exact .arr fun v hv => absurd hv List.not_mem_nil
  | array hstart hopen hinside => exact .arr (hitems hinside)
  | emptyObject hclose => exact .obj List.nodup_nil fun f hf => absurd hf List.not_mem_nil
  | object hstart hopen hinside =>
      refine .obj (nodup_keys_lastEntries _) ?_
      exact fun f hf => hfields hinside f (mem_lastEntries hf)
  | scalar hquote hbracket hbrace hscalar => exact readable_of_scalarValue hscalar

/-- All that is read is readable. -/
theorem readable_of_read (fuel : Nat) : HoldsOfRead fuel (fun room _ v _ => Readable room v)
    (fun room _ vs _ => ∀ v ∈ vs, Readable room v)
    fun room _ fs _ => ∀ f ∈ fs, Readable room f.2 := by
  refine .of_steps ?_ ?_ ?_ fuel
  · intro fuel room t v rest ih hstep
    exact readable_of_valueStep ih.items ih.fields hstep
  · intro fuel room t vs rest ih hstep
    cases hstep with
    | last hfirst hclose => exact List.forall_mem_singleton.mpr (ih.value hfirst)
    | more hfirst hcomma hlater =>
        exact List.forall_mem_cons.mpr ⟨ih.value hfirst, ih.items hlater⟩
  · intro fuel room t fs rest ih hstep
    have hfield : ∀ {t f rest}, FieldStep fuel room t f rest → Readable room f.2 := by
      intro t f rest hf
      cases hf with
      | field hkey hcolon hread => exact ih.value hread
    cases hstep with
    | last hfirst hclose => exact List.forall_mem_singleton.mpr (hfield hfirst)
    | more hfirst hcomma hlater =>
        exact List.forall_mem_cons.mpr ⟨hfield hfirst, ih.fields hlater⟩

/-- A value that was read is read back from what is written for it. -/
theorem readable_of_parse [Stack] (h : parse t = .ok v) : Readable Stack.room v := by
  unfold parse at h
  split at h
  · contradiction
  · rename_i read rest hvalue
    split at h
    · rw [← Except.ok.inj h]
      exact (readable_of_read _).value hvalue
    · contradiction

/-! ## Fields -/

variable {fs : List (Text × Json)} {key : Text}

theorem readable_of_fieldsOrVoid? (hv : Readable (room + 1) v) (h : v.fieldsOrVoid? = some fs) :
    ∀ f ∈ fs, Readable room f.2 := by
  unfold fieldsOrVoid? at h
  split at h
  · rw [← Option.some.inj h]
    exact fun f hf => absurd hf List.not_mem_nil
  · unfold fields? at h
    split at h
    · cases hv with
      | obj hkeys hfields =>
          rw [← Option.some.inj h]
          exact hfields
    · contradiction

theorem readable_of_givenField? (hfs : ∀ f ∈ fs, Readable room f.2)
    (h : givenField? fs key = some v) : Readable room v := by
  unfold givenField? at h
  split at h
  · rename_i w hlookup
    split at h
    · contradiction
    · rw [← Option.some.inj h]
      exact hfs (key, w) (mem_of_lookupEntry hlookup)
  · contradiction

end Lifeline.Json
