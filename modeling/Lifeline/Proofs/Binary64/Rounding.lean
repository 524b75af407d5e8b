import Lifeline.Binary64.Shortest
import Mathlib.Tactic.Ring
import Mathlib.Tactic.Positivity
import Mathlib.Tactic.NormNum

/-!
# Rounding and the shortest decimal

Rounding a quotient depends on its value alone (`nearestRank_congr`), and a
magnitude is rounded to itself (`nearestRank_units`).  So the decimal that a
magnitude is written as reads back as the magnitude, with or without zeros
behind its digits (`rankOfDecimal_shortest`, `rankOfDecimal_append_zeros`).

The reader of decimals stops early for numbers far beyond the range of the
format.  This is only a shortcut: rounding gives the same (`ofDecimal_eq_ofRank`).
-/

namespace Lifeline.Binary64

variable {num den num' den' k digits : Nat} {exponent : Int} {rank : Nat} {negative : Bool}

/-! ## Rounding depends on the value alone -/

theorem divHalfEven_mul (hk : 0 < k) : divHalfEven (num * k) (den * k) = divHalfEven num den := by
  have hquotient : num * k / (den * k) = num / den := Nat.mul_div_mul_right num den hk
  have hremainder : num * k % (den * k) = num % den * k := Nat.mul_mod_mul_right k num den
  have hless : ∀ a b : Nat, a * k < b * k ↔ a < b := fun a b => Nat.mul_lt_mul_right hk
  simp only [divHalfEven, hquotient, hremainder, ← Nat.mul_assoc, hless]

theorem nearestRank_mul (hk : 0 < k) : nearestRank (num * k) (den * k) = nearestRank num den := by
  have hquotient : num * k / (den * k) = num / den := Nat.mul_div_mul_right num den hk
  simp only [nearestRank, hquotient, Nat.mul_right_comm den k, divHalfEven_mul hk]

/-- Equal quotients are rounded to the same magnitude. -/
theorem nearestRank_congr (hden : 0 < den) (hden' : 0 < den') (h : num * den' = num' * den) :
    nearestRank num den = nearestRank num' den' := by
  calc nearestRank num den
      = nearestRank (num * den') (den * den') := (nearestRank_mul hden').symm
    _ = nearestRank (num' * den) (den' * den) := by rw [h, Nat.mul_comm den den']
    _ = nearestRank num' den' := nearestRank_mul hden

theorem divHalfEven_mul_self (hden : 0 < den) : divHalfEven (num * den) den = num := by
  simp [divHalfEven, hden]

/-- Less than half a unit is rounded to nothing. -/
theorem nearestRank_of_two_mul_lt (h : 2 * num < den) : nearestRank num den = 0 := by
  have hquotient : num / den = 0 := Nat.div_eq_of_lt (by omega)
  have hremainder : num % den = num := Nat.mod_eq_of_lt (by omega)
  have hlog : Nat.log2 0 - 52 = 0 := by decide
  have hpow : Nat.pow 2 0 = 1 := rfl
  simp only [nearestRank, divHalfEven, hquotient, hlog, hpow, Nat.mul_one, hremainder, h, if_true,
    Nat.zero_mul]

/-! ## Magnitudes -/

/-- A whole number of units whose bits beyond the first 53 are zeros is rounded
to the magnitude that has these bits. -/
theorem nearestRank_mul_pow {bits p : Nat} (hlow : ranksPerDoubling ≤ bits)
    (hhigh : bits < 2 * ranksPerDoubling) :
    nearestRank (bits * Nat.pow 2 p) 1 = p * ranksPerDoubling + bits := by
  have hpos : 0 < Nat.pow 2 p := Nat.pow_pos (by decide)
  have hlog : (bits * Nat.pow 2 p).log2 = 52 + p := by
    have hne : bits * Nat.pow 2 p ≠ 0 := by
      have hbits : 0 < bits := Nat.lt_of_lt_of_le (by decide) hlow
      exact Nat.ne_of_gt (Nat.mul_pos hbits hpos)
    rw [Nat.log2_eq_iff hne]
    constructor
    · calc 2 ^ (52 + p) = ranksPerDoubling * Nat.pow 2 p := pow_add 2 52 p
        _ ≤ bits * Nat.pow 2 p := Nat.mul_le_mul_right _ hlow
    · calc bits * Nat.pow 2 p < 2 * ranksPerDoubling * Nat.pow 2 p :=
            (Nat.mul_lt_mul_right hpos).mpr hhigh
        _ = 2 ^ (52 + p + 1) := by rw [pow_succ, pow_add, Nat.mul_comm 2, Nat.mul_right_comm]; rfl
  have hshift : 52 + p - 52 = p := by omega
  simp only [nearestRank, Nat.div_one, hlog, hshift, Nat.one_mul, divHalfEven_mul_self hpos]

/-- A magnitude is rounded to itself. -/
theorem nearestRank_units (rank : Nat) : nearestRank (units rank) 1 = rank := by
  have hpos : 0 < ranksPerDoubling := by decide
  unfold units
  split
  · rename_i hsmall
    have hlog : rank.log2 - 52 = 0 := by
      rcases Nat.eq_zero_or_pos rank with rfl | hrank
      · decide
      · have hlog52 : rank.log2 < 52 := (Nat.log2_lt (by omega)).mpr hsmall
        omega
    have hone : divHalfEven (rank * 1) (1 * Nat.pow 2 0) = rank := divHalfEven_mul_self (by decide)
    rw [Nat.mul_one] at hone
    simp only [nearestRank, Nat.div_one, hlog, hone, Nat.zero_mul, Nat.zero_add]
  · rename_i hlarge
    -- Behind the first doubling the remainder gives the bits and the quotient their place.
    have hdoublings : 1 ≤ rank / ranksPerDoubling :=
      (Nat.one_le_div_iff hpos).mpr (Nat.le_of_not_lt hlarge)
    have hbits : rank % ranksPerDoubling < ranksPerDoubling := Nat.mod_lt _ hpos
    have hparts := Nat.div_add_mod' rank ranksPerDoubling
    rw [nearestRank_mul_pow (by omega) (by omega)]
    calc (rank / ranksPerDoubling - 1) * ranksPerDoubling +
          (ranksPerDoubling + rank % ranksPerDoubling)
        = (rank / ranksPerDoubling - 1 + 1) * ranksPerDoubling + rank % ranksPerDoubling := by ring
      _ = rank := by rw [Nat.sub_add_cancel hdoublings, hparts]

/-! ## Decimals -/

/-- The magnitude nearest to a decimal as that of a quotient, whatever the sign
of its exponent. -/
theorem rankOfDecimal_eq (digits : Nat) (exponent : Int) :
    rankOfDecimal ⟨digits, exponent⟩ =
      nearestRank (digits * 10 ^ exponent.toNat * unitsPerOne) (10 ^ (-exponent).toNat) := by
  cases exponent with
  | ofNat e =>
      have hden : (-Int.ofNat e).toNat = 0 := by simp
      rw [hden]
      rfl
  | negSucc e =>
      have hden : (-Int.negSucc e).toNat = e + 1 := rfl
      have hnum : (Int.negSucc e).toNat = 0 := rfl
      rw [hden, hnum, pow_zero, Nat.mul_one]
      rfl

theorem rankOfDecimal_zero (exponent : Int) : rankOfDecimal ⟨0, exponent⟩ = 0 := by
  rw [rankOfDecimal_eq, Nat.zero_mul, Nat.zero_mul]
  exact nearestRank_of_two_mul_lt (by positivity)

/-- Zeros behind the digits change nothing when the exponent makes up for
them. -/
theorem rankOfDecimal_append_zeros (digits k : Nat) (exponent : Int) :
    rankOfDecimal ⟨digits * 10 ^ k, exponent - k⟩ = rankOfDecimal ⟨digits, exponent⟩ := by
  rw [rankOfDecimal_eq, rankOfDecimal_eq]
  apply nearestRank_congr (by positivity) (by positivity)
  have hpowers : k + (exponent - k).toNat + (-exponent).toNat =
      exponent.toNat + (-(exponent - k)).toNat := by omega
  calc digits * 10 ^ k * 10 ^ (exponent - k).toNat * unitsPerOne * 10 ^ (-exponent).toNat
      = digits * unitsPerOne * 10 ^ (k + (exponent - k).toNat + (-exponent).toNat) := by
        rw [pow_add, pow_add]
        ring
    _ = digits * unitsPerOne * 10 ^ (exponent.toNat + (-(exponent - k)).toNat) := by rw [hpowers]
    _ = digits * 10 ^ exponent.toNat * unitsPerOne * 10 ^ (-(exponent - k)).toNat := by
        rw [pow_add]
        ring

theorem rankOfDecimal_dropZeros (fuel : Nat) (d : Decimal) :
    rankOfDecimal (dropZeros fuel d) = rankOfDecimal d := by
  induction fuel generalizing d with
  | zero => rfl
  | succ fuel ih =>
      rw [dropZeros]
      split
      · rename_i hzero
        have hdigits : d.digits / 10 * 10 ^ 1 = d.digits := by omega
        have hexponent : d.exponent + 1 - (1 : Nat) = d.exponent := by omega
        have hback := rankOfDecimal_append_zeros (d.digits / 10) 1 (d.exponent + 1)
        rw [hdigits, hexponent] at hback
        rw [ih, ← hback]
      · rfl

/-- Powers of five and of two together are powers of ten. -/
theorem nearestRank_five_two (n k : Nat) :
    nearestRank (n * Nat.pow 5 k * Nat.pow 2 k) (Nat.pow 10 k) = nearestRank n 1 := by
  have hten : Nat.pow 10 k = Nat.pow 5 k * Nat.pow 2 k := Nat.mul_pow 5 2 k
  apply nearestRank_congr (Nat.pow_pos (by decide)) (by decide)
  show n * Nat.pow 5 k * Nat.pow 2 k * 1 = n * Nat.pow 10 k
  rw [hten, Nat.mul_one, Nat.mul_assoc]

theorem rankOfDecimal_negSucc (digits e : Nat) :
    rankOfDecimal ⟨digits, .negSucc e⟩ =
      nearestRank (digits * unitsPerOne) (Nat.pow 10 (e + 1)) := rfl

/-- The exact value of a magnitude reads back. -/
theorem rankOfDecimal_exactDecimal (rank : Nat) : rankOfDecimal (exactDecimal rank) = rank := by
  have hexponent : exactDecimal rank = ⟨units rank * Nat.pow 5 1074, .negSucc 1073⟩ := rfl
  have hplaces : 1073 + 1 = 1074 := rfl
  rw [hexponent, rankOfDecimal_negSucc, hplaces]
  unfold unitsPerOne
  generalize 1074 = k
  rw [nearestRank_five_two, nearestRank_units]

/-- Of two decimals the first one that reads back is taken. -/
theorem readsBack_of_choice {near far d : Decimal}
    (h : (if readsBack rank near then some near
      else if readsBack rank far then some far else none) = some d) : readsBack rank d = true := by
  split at h
  · rename_i hnear
    rwa [← Option.some.inj h]
  split at h
  · rename_i hfar
    rwa [← Option.some.inj h]
  · contradiction

theorem rankOfDecimal_of_neighbour? {d : Decimal} (h : neighbour? rank exponent = some d) :
    rankOfDecimal d = rank := by
  have hread : readsBack rank d = true := by
    unfold neighbour? at h
    cases scaled rank exponent with
    | mk num den => exact readsBack_of_choice h
  simpa [readsBack] using hread

/-- The decimal that a magnitude is written as reads back as the magnitude. -/
theorem rankOfDecimal_shortest (rank : Nat) : rankOfDecimal (shortest rank) = rank := by
  unfold shortest
  simp only [rankOfDecimal_dropZeros]
  cases hfound : (List.range 17).findSome? fun (count : Nat) =>
      neighbour? rank (leadingPower rank - count) with
  | none => exact rankOfDecimal_exactDecimal rank
  | some d =>
      obtain ⟨count, -, hcount⟩ := List.exists_of_findSome?_eq_some hfound
      exact rankOfDecimal_of_neighbour? hcount

/-! ## Numbers beyond the range -/

theorem div_le_divHalfEven (num den : Nat) : num / den ≤ divHalfEven num den := by
  simp only [divHalfEven]
  split
  · exact Nat.le_refl _
  split
  · exact Nat.le_succ _
  · exact Nat.le_add_right _ _

/-- A quotient that begins `k` doublings behind the first 53 bits is rounded to
a magnitude as far up. -/
theorem mul_le_nearestRank (h : 2 ^ (52 + k) ≤ num / den) :
    (k + 1) * ranksPerDoubling ≤ nearestRank num den := by
  have hne : num / den ≠ 0 := Nat.ne_of_gt (Nat.lt_of_lt_of_le (Nat.two_pow_pos _) h)
  have hlog : 52 + k ≤ (num / den).log2 := (Nat.le_log2 hne).mpr h
  obtain ⟨shift, hshift⟩ : ∃ shift, (num / den).log2 = 52 + shift :=
    ⟨(num / den).log2 - 52, by omega⟩
  have hpos : 0 < Nat.pow 2 shift := Nat.pow_pos (by decide)
  -- The quotient has 53 bits at least in front of those that are dropped.
  have hbits : ranksPerDoubling ≤ num / (den * Nat.pow 2 shift) := by
    rw [← Nat.div_div_eq_div_mul]
    apply (Nat.le_div_iff_mul_le hpos).mpr
    calc ranksPerDoubling * Nat.pow 2 shift = 2 ^ (52 + shift) := (pow_add 2 52 shift).symm
      _ ≤ num / den := hshift ▸ Nat.log2_self_le hne
  have hround := div_le_divHalfEven num (den * Nat.pow 2 shift)
  have hplace : 52 + shift - 52 = shift := by omega
  simp only [nearestRank, hshift, hplace]
  calc (k + 1) * ranksPerDoubling = k * ranksPerDoubling + ranksPerDoubling := Nat.succ_mul k _
    _ ≤ shift * ranksPerDoubling + divHalfEven num (den * Nat.pow 2 shift) :=
      Nat.add_le_add (Nat.mul_le_mul_right _ (by omega)) (hbits.trans hround)

theorem lt_pow_length_toDigits (digits : Nat) :
    digits < 10 ^ (Nat.toDigits 10 digits).length :=
  (Nat.length_toDigits_le_iff (by decide) Nat.length_toDigits_pos).mp (Nat.le_refl _)

theorem pow_length_toDigits_le (hdigits : digits ≠ 0) :
    10 ^ ((Nat.toDigits 10 digits).length - 1) ≤ digits := by
  by_contra hless
  rcases Nat.eq_zero_or_pos ((Nat.toDigits 10 digits).length - 1) with hone | hmore
  · rw [hone] at hless
    omega
  · have hshort := (Nat.length_toDigits_le_iff (by decide) hmore).mpr (Nat.lt_of_not_le hless)
    omega

/-- A decimal below the smallest magnitudes is rounded to zero. -/
theorem rankOfDecimal_eq_zero
    (hplace : exponent + (Nat.toDigits 10 digits).length < -400) :
    rankOfDecimal ⟨digits, exponent⟩ = 0 := by
  have hnum : exponent.toNat = 0 := by omega
  have hden : (Nat.toDigits 10 digits).length + 401 ≤ (-exponent).toNat := by omega
  have hpos : 0 < unitsPerOne := by decide +kernel
  have hunits : 2 * unitsPerOne ≤ 10 ^ 401 := by decide +kernel
  rw [rankOfDecimal_eq, hnum]
  generalize unitsPerOne = one at hpos hunits ⊢
  apply nearestRank_of_two_mul_lt
  calc 2 * (digits * 10 ^ 0 * one) = digits * (2 * one) := by ring
    _ < 10 ^ (Nat.toDigits 10 digits).length * (2 * one) :=
      (Nat.mul_lt_mul_right (by omega)).mpr (lt_pow_length_toDigits digits)
    _ ≤ 10 ^ (Nat.toDigits 10 digits).length * 10 ^ 401 := Nat.mul_le_mul_left _ hunits
    _ = 10 ^ ((Nat.toDigits 10 digits).length + 401) := (pow_add _ _ _).symm
    _ ≤ 10 ^ (-exponent).toNat := Nat.pow_le_pow_right (by decide) hden

/-- A decimal above the largest magnitude is rounded to none that is finite. -/
theorem finiteRanks_le_rankOfDecimal (hdigits : digits ≠ 0)
    (hplace : 400 < exponent + (Nat.toDigits 10 digits).length) :
    finiteRanks ≤ rankOfDecimal ⟨digits, exponent⟩ := by
  -- The number of places is named, since its power of ten must not be computed.
  obtain ⟨far, hfar, hunits⟩ : ∃ far : Nat, far = 400 ∧
      2 ^ (52 + 2046) ≤ 10 ^ far * unitsPerOne := ⟨400, rfl, by decide +kernel⟩
  have hlength : 0 < (Nat.toDigits 10 digits).length := Nat.length_toDigits_pos
  have hpowers : far + (-exponent).toNat ≤
      (Nat.toDigits 10 digits).length - 1 + exponent.toNat := by omega
  have hranks : finiteRanks = (2046 + 1) * ranksPerDoubling := rfl
  rw [rankOfDecimal_eq, hranks]
  generalize unitsPerOne = one at hunits ⊢
  apply mul_le_nearestRank
  refine hunits.trans ?_
  rw [Nat.le_div_iff_mul_le (by positivity)]
  calc 10 ^ far * one * 10 ^ (-exponent).toNat
      = 10 ^ (far + (-exponent).toNat) * one := by
        rw [pow_add]
        ring
    _ ≤ 10 ^ ((Nat.toDigits 10 digits).length - 1 + exponent.toNat) * one :=
        Nat.mul_le_mul_right _ (Nat.pow_le_pow_right (by decide) hpowers)
    _ = 10 ^ ((Nat.toDigits 10 digits).length - 1) * 10 ^ exponent.toNat * one := by
        rw [pow_add]
    _ ≤ digits * 10 ^ exponent.toNat * one :=
        Nat.mul_le_mul_right _ (Nat.mul_le_mul_right _ (pow_length_toDigits_le hdigits))

/-- A decimal is read as the number nearest to it, also where the reader does not
round. -/
theorem ofDecimal_eq_ofRank (negative : Bool) (d : Decimal) :
    ofDecimal negative d = ofRank negative (rankOfDecimal d) := by
  obtain ⟨digits, exponent⟩ := d
  unfold ofDecimal
  simp only
  split
  · rename_i hsmall
    have hzero : rankOfDecimal ⟨digits, exponent⟩ = 0 := by
      rcases hsmall with rfl | hplace
      · exact rankOfDecimal_zero exponent
      · exact rankOfDecimal_eq_zero hplace
    rw [hzero]
  · rename_i hsmall
    split
    · rename_i hplace
      have hrank := finiteRanks_le_rankOfDecimal (fun h => hsmall (Or.inl h)) hplace
      rw [ofRank, dif_neg (Nat.not_lt.mpr hrank)]
    · rfl

/-- A decimal that reads back as a finite magnitude is read as this number. -/
theorem ofDecimal_of_rankOfDecimal {d : Decimal} {rank : Fin finiteRanks}
    (h : rankOfDecimal d = rank.val) (negative : Bool) :
    ofDecimal negative d = .finite negative rank := by
  rw [ofDecimal_eq_ofRank, h, ofRank, dif_pos rank.isLt]

end Lifeline.Binary64
