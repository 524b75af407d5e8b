import Lifeline.Json.Reader
import Lifeline.Json.Writer
import Lifeline.Proofs.Binary64.Rounding

/-!
# Numbers read back

A number is read from its digits, its point and its exponent, whatever follows,
as long as what follows cannot continue it (`Closed`).  So an integer is read
back from its digits, and a number of double precision from its shortest
decimal, in each of the three ways in which that decimal is laid out.
-/

namespace Lifeline.Json

open Binary64 (Decimal rankOfDecimal layOut magnitudeText shortest)

variable {t rest whole digits : Text} {c : CodePoint} {negative : Bool}

/-- A text does not go on with a digit. -/
def DigitsEnd (rest : Text) : Prop :=
  ∀ c, rest.head? = some c → isDigit c = false

/-- A text that cannot continue a number. -/
def Closed (rest : Text) : Prop :=
  ∀ c, rest.head? = some c → isDigit c = false ∧ c ≠ '.' ∧ c ≠ 'e' ∧ c ≠ 'E'

/-- All characters of a text are digits. -/
def AllDigits (digits : Text) : Prop :=
  ∀ c ∈ digits, isDigit c = true

/-- Digits without a zero in front, or a zero alone. -/
inductive IsWhole : Text → Prop
  | zero : IsWhole ['0']
  | cons {c : CodePoint} {digits : Text} (hc : isDigit c = true) (hzero : c ≠ '0')
      (hdigits : AllDigits digits) : IsWhole (c :: digits)

theorem Closed.digitsEnd (hrest : Closed rest) : DigitsEnd rest :=
  fun c hc => (hrest c hc).1

theorem digitsEnd_cons (hc : isDigit c = false) : DigitsEnd (c :: t) := by
  intro d hd
  obtain rfl : c = d := by simpa using hd
  exact hc

/-! ## Digits -/

theorem AllDigits.append (ht : AllDigits t) (hdigits : AllDigits digits) :
    AllDigits (t ++ digits) := by
  intro c hc
  rcases List.mem_append.mp hc with hc | hc
  · exact ht c hc
  · exact hdigits c hc

theorem allDigits_replicate_zero (k : Nat) : AllDigits (List.replicate k '0') := by
  intro c hc
  rw [List.eq_of_mem_replicate hc]
  rfl

theorem IsWhole.append (hwhole : IsWhole (c :: t)) (hzero : c ≠ '0')
    (hdigits : AllDigits digits) : IsWhole (c :: t ++ digits) := by
  cases hwhole with
  | zero => exact absurd rfl hzero
  | cons hc hzero ht => exact .cons hc hzero (ht.append hdigits)

theorem foldl_digits (digits : Text) (n : Nat) :
    digits.foldl (fun n c => n * 10 + (c.toNat - 48)) n =
      n * 10 ^ digits.length + digitsValue digits := by
  induction digits generalizing n with
  | nil => simp [digitsValue]
  | cons c digits ih =>
      have hfirst : digitsValue (c :: digits) =
          (0 * 10 + (c.toNat - 48)) * 10 ^ digits.length + digitsValue digits :=
        ih (0 * 10 + (c.toNat - 48))
      rw [List.foldl_cons, ih, hfirst, List.length_cons, pow_succ]
      ring

theorem digitsValue_append (s t : Text) :
    digitsValue (s ++ t) = digitsValue s * 10 ^ t.length + digitsValue t := by
  have hfold := foldl_digits t (digitsValue s)
  unfold digitsValue at hfold ⊢
  rw [List.foldl_append, hfold]

theorem digitsValue_replicate_zero (k : Nat) : digitsValue (List.replicate k '0') = 0 := by
  induction k with
  | zero => rfl
  | succ k ih => exact ih

theorem digitsValue_zeros_append (k : Nat) (t : Text) :
    digitsValue (List.replicate k (.char '0') ++ t) = digitsValue t := by
  rw [digitsValue_append, digitsValue_replicate_zero, Nat.zero_mul, Nat.zero_add]

theorem digitsValue_append_zeros (t : Text) (k : Nat) :
    digitsValue (t ++ List.replicate k (.char '0')) = digitsValue t * 10 ^ k := by
  rw [digitsValue_append, digitsValue_replicate_zero, List.length_replicate, Nat.add_zero]

theorem takeWhile_isDigit_append (hdigits : AllDigits digits) (hrest : DigitsEnd rest) :
    (digits ++ rest).takeWhile isDigit = digits := by
  rw [List.takeWhile_append_of_pos hdigits]
  cases rest with
  | nil => simp
  | cons c rest => simp [hrest c rfl]

theorem dropWhile_isDigit_append (hdigits : AllDigits digits) (hrest : DigitsEnd rest) :
    (digits ++ rest).dropWhile isDigit = rest := by
  rw [List.dropWhile_append_of_pos hdigits]
  cases rest with
  | nil => rfl
  | cons c rest => simp [hrest c rfl]

/-! ## The parts of a number -/

theorem wholeDigits?_append (hwhole : IsWhole whole) (hrest : DigitsEnd rest) :
    wholeDigits? (whole ++ rest) = some (whole, rest) := by
  cases hwhole with
  | zero => rfl
  | @cons c digits hc hzero hdigits =>
      show wholeDigits? (c :: (digits ++ rest)) = _
      unfold wholeDigits?
      simp only [hzero, hc, if_false, if_true, takeWhile_isDigit_append hdigits hrest,
        dropWhile_isDigit_append hdigits hrest]

theorem fraction_point (hne : digits ≠ []) (hdigits : AllDigits digits)
    (hrest : DigitsEnd rest) : fraction (.char '.' :: (digits ++ rest)) = (digits, rest) := by
  have hsome : digits.isEmpty = false := by simpa using hne
  simp only [fraction, takeWhile_isDigit_append hdigits hrest,
    dropWhile_isDigit_append hdigits hrest, hsome, Bool.false_eq_true, if_false]

theorem fraction_of_ne_point (hpoint : ∀ c, rest.head? = some c → c ≠ '.') :
    fraction rest = ([], rest) := by
  unfold fraction
  split
  · exact absurd rfl (hpoint '.' rfl)
  · rfl

theorem fraction_of_closed (hrest : Closed rest) : fraction rest = ([], rest) :=
  fraction_of_ne_point fun c hc => (hrest c hc).2.1

theorem exponent?_of_closed (hrest : Closed rest) : exponent? rest = none := by
  unfold exponent?
  cases rest with
  | nil => rfl
  | cons c rest =>
      obtain ⟨-, -, he, hE⟩ := hrest c rfl
      simp [he, hE]

theorem exponentSign_cons (negative : Bool) (t : Text) :
    exponentSign ((if negative then '-' else '+') :: t) = (negative, t) := by
  cases negative with
  | true => rfl
  | false => rfl

theorem exponent?_sign (negative : Bool) (hne : digits ≠ []) (hdigits : AllDigits digits)
    (hrest : DigitsEnd rest) :
    exponent? (.char 'e' :: (if negative then '-' else '+') :: (digits ++ rest)) =
      some (if negative then -(digitsValue digits : Int) else digitsValue digits, rest) := by
  have hsome : digits.isEmpty = false := by simpa using hne
  simp only [exponent?, true_or, if_true, exponentSign_cons,
    takeWhile_isDigit_append hdigits hrest, dropWhile_isDigit_append hdigits hrest, hsome,
    Bool.false_eq_true, if_false]

/-! ## Numbers -/

/-- Digits, a point and digits are read as a decimal. -/
theorem number_point (negative : Bool) (hwhole : IsWhole whole) (hne : digits ≠ [])
    (hdigits : AllDigits digits) (hrest : Closed rest) :
    number negative (whole ++ .char '.' :: (digits ++ rest)) =
      .ok (.real (.ofDecimal negative ⟨digitsValue (whole ++ digits), -digits.length⟩), rest) := by
  have hpoint : DigitsEnd (.char '.' :: (digits ++ rest)) := digitsEnd_cons rfl
  have hsome : digits.isEmpty = false := by simpa using hne
  simp only [number, wholeDigits?_append hwhole hpoint,
    fraction_point hne hdigits hrest.digitsEnd, exponent?_of_closed hrest, hsome, Bool.not_false,
    if_true]

/-- A point and digits, or nothing. -/
def pointed (digits : Text) : Text :=
  if digits = [] then [] else .char '.' :: digits

theorem fraction_pointed (hdigits : AllDigits digits) (hend : DigitsEnd rest)
    (hpoint : ∀ c, rest.head? = some c → c ≠ '.') :
    fraction (pointed digits ++ rest) = (digits, rest) := by
  unfold pointed
  split
  · rename_i hnil
    rw [List.nil_append, fraction_of_ne_point hpoint, hnil]
  · rename_i hne
    exact fraction_point hne hdigits hend

theorem digitsEnd_pointed (hrest : DigitsEnd rest) : DigitsEnd (pointed digits ++ rest) := by
  unfold pointed
  split
  · exact hrest
  · exact digitsEnd_cons rfl

/-- Digits with or without a point and an exponent are read as a decimal. -/
theorem number_power (negative down : Bool) {power : Text} (hwhole : IsWhole whole)
    (hdigits : AllDigits digits) (hne : power ≠ []) (hpower : AllDigits power)
    (hrest : DigitsEnd rest) :
    number negative (whole ++ (pointed digits ++
        .char 'e' :: (if down then .char '-' else .char '+') :: (power ++ rest))) =
      .ok (.real (.ofDecimal negative ⟨digitsValue (whole ++ digits),
        (if down then -(digitsValue power : Int) else digitsValue power) - digits.length⟩),
        rest) := by
  have hletter : ∀ t, DigitsEnd (.char 'e' :: t) := fun t => digitsEnd_cons rfl
  have hpoint : ∀ t c, (.char 'e' :: t : Text).head? = some c → c ≠ '.' := by
    intro t c hc
    obtain rfl : 'e' = c := Option.some.inj hc
    decide
  simp only [number, wholeDigits?_append hwhole (digitsEnd_pointed (hletter _)),
    fraction_pointed hdigits (hletter _) (hpoint _), exponent?_sign down hne hpower hrest]

/-! ## Integers -/

theorem isDigit_eq (c : CodePoint) : isDigit c = c.isDigit := by
  rw [Bool.eq_iff_iff, isDigit, Bool.and_eq_true, decide_eq_true_eq, decide_eq_true_eq,
    CodePoint.isDigit_iff]
  rfl

theorem allDigits_ofNat (n : Nat) : AllDigits (Text.ofNat n) := by
  intro c hc
  obtain ⟨d, hd, rfl⟩ := List.mem_map.mp hc
  rw [isDigit_eq]
  exact Nat.isDigit_of_mem_toDigits (by omega) (by omega) hd

theorem ofNat_ne_nil (n : Nat) : Text.ofNat n ≠ [] :=
  fun h => Nat.toDigits_ne_nil (List.map_eq_nil_iff.mp h)

theorem digitsValue_ofNat (n : Nat) : digitsValue (Text.ofNat n) = n := by
  have hvalue : Nat.ofDigitChars 10 (Nat.toDigits 10 n) 0 = n := Nat.ofDigitChars_ten_toDigits
  rw [Nat.ofDigitChars_eq_foldl] at hvalue
  unfold digitsValue Text.ofNat
  rw [List.foldl_map]
  simpa [Nat.mul_comm, CodePoint.toNat_char] using hvalue

/-- Only zero is written with a zero in front. -/
theorem head?_ofNat_ne_zero {n : Nat} (hn : 0 < n) : (Text.ofNat n).head? ≠ some (.char '0') := by
  induction n using Nat.strongRecOn with
  | ind n ih =>
      unfold Text.ofNat at ih ⊢
      by_cases hsmall : n < 10
      · rw [Nat.toDigits_of_lt_base hsmall]
        simp only [List.map_cons, List.head?_cons, ne_eq, Option.some.injEq,
          CodePoint.char.injEq, Nat.digitChar_eq_zero]
        omega
      · have hfront := ih (n / 10) (by omega) (by omega)
        rw [Nat.toDigits_of_base_le (by omega) (by omega)]
        obtain ⟨c, t, hdigits⟩ := List.exists_cons_of_ne_nil
          (Nat.toDigits_ne_nil : Nat.toDigits 10 (n / 10) ≠ [])
        rw [hdigits] at hfront ⊢
        exact hfront

/-- The digits of a positive number. -/
theorem exists_ofNat_eq_cons {n : Nat} (hn : 0 < n) :
    ∃ c t, Text.ofNat n = c :: t ∧ isDigit c = true ∧ c ≠ '0' ∧ AllDigits t := by
  obtain ⟨c, t, hdigits⟩ := List.exists_cons_of_ne_nil (ofNat_ne_nil n)
  have hall := allDigits_ofNat n
  have hzero := head?_ofNat_ne_zero hn
  rw [hdigits] at hall hzero
  refine ⟨c, t, hdigits, hall c List.mem_cons_self, fun h => hzero (by rw [h]; rfl), ?_⟩
  exact fun b hb => hall b (List.mem_cons_of_mem c hb)

theorem isWhole_ofNat (n : Nat) : IsWhole (Text.ofNat n) := by
  rcases Nat.eq_zero_or_pos n with rfl | hn
  · exact .zero
  · obtain ⟨c, t, hdigits, hc, hzero, ht⟩ := exists_ofNat_eq_cons hn
    rw [hdigits]
    exact .cons hc hzero ht

/-- Digits behind a sign are read as an integer. -/
theorem number_ofNat (negative : Bool) {n : Nat}
    (hdigits : (Text.ofNat n).length ≤ maxIntegerDigits) (hrest : Closed rest) :
    number negative (Text.ofNat n ++ rest) =
      .ok (.int (if negative then -(n : Int) else n), rest) := by
  unfold number
  rw [wholeDigits?_append (isWhole_ofNat n) hrest.digitsEnd]
  simp only [fraction_of_closed hrest, exponent?_of_closed hrest, List.isEmpty_nil, Bool.not_true,
    Bool.false_eq_true, if_false, Nat.not_lt.mpr hdigits, digitsValue_ofNat]

/-! ## Decimals -/

/-- A number is read as a decimal that is rounded like the one given. -/
def ReadsAs (negative : Bool) (t : Text) (d : Decimal) : Prop :=
  ∃ read : Decimal, rankOfDecimal read = rankOfDecimal d ∧
    ∀ rest, Closed rest →
      number negative (t ++ rest) = .ok (.real (.ofDecimal negative read), rest)

section LayOut

variable {n : Nat} {power : Int}

/-- Below one the digits stand behind zeros. -/
theorem readsAs_layOut_below (hlow : -4 ≤ power) (hhigh : power < 0) :
    ReadsAs negative (layOut (Text.ofNat n) power) ⟨n, power + 1 - (Text.ofNat n).length⟩ := by
  have hzeros : AllDigits (List.replicate (-power - 1).toNat (.char '0') ++ Text.ofNat n) :=
    (allDigits_replicate_zero _).append (allDigits_ofNat n)
  have hne : List.replicate (-power - 1).toNat (.char '0') ++ Text.ofNat n ≠ [] := by
    simp [ofNat_ne_nil n]
  have hvalue : digitsValue ([.char '0'] ++
      (List.replicate (-power - 1).toNat (.char '0') ++ Text.ofNat n)) =
      n := by
    rw [show ([.char '0'] : Text) = List.replicate 1 (.char '0') from rfl,
      digitsValue_zeros_append, digitsValue_zeros_append, digitsValue_ofNat]
  have hexponent : -((List.replicate (-power - 1).toNat (CodePoint.char '0') ++
      Text.ofNat n).length : Int) =
      power + 1 - (Text.ofNat n).length := by
    rw [List.length_append, List.length_replicate]
    omega
  refine ⟨_, rfl, ?_⟩
  intro rest hrest
  have hread := number_point negative IsWhole.zero hne hzeros hrest
  rw [hvalue, hexponent] at hread
  rw [← hread, layOut, if_pos ⟨hlow, by omega⟩, if_pos hhigh]
  simp

/-- Digits that end before the point are filled up with zeros. -/
theorem readsAs_layOut_whole (hn : 0 < n) (hlow : 0 ≤ power) (hhigh : power < 16)
    (hlength : (Text.ofNat n).length ≤ power.toNat + 1) :
    ReadsAs negative (layOut (Text.ofNat n) power) ⟨n, power + 1 - (Text.ofNat n).length⟩ := by
  obtain ⟨k, hk⟩ : ∃ k, power.toNat + 1 = (Text.ofNat n).length + k :=
    ⟨power.toNat + 1 - (Text.ofNat n).length, by omega⟩
  have hwhole : IsWhole (Text.ofNat n ++ List.replicate k (.char '0')) := by
    obtain ⟨c, t, hdigits, hc, hzero, ht⟩ := exists_ofNat_eq_cons hn
    rw [hdigits]
    exact IsWhole.append (.cons hc hzero ht) hzero (allDigits_replicate_zero k)
  have hone : AllDigits ['0'] := allDigits_replicate_zero 1
  have hvalue : digitsValue (Text.ofNat n ++ List.replicate k (.char '0') ++ [.char '0']) =
      n * 10 ^ (k + 1) := by
    rw [List.append_assoc, show ([.char '0'] : Text) = List.replicate 1 (.char '0') from rfl,
      List.replicate_append_replicate, digitsValue_append_zeros, digitsValue_ofNat]
  have hexponent : power + 1 - (Text.ofNat n).length - (k + 1 : Nat) = -1 := by omega
  -- It is read with one digit behind the point, the zero that the layout adds.
  refine ⟨⟨n * 10 ^ (k + 1), -1⟩, ?_, ?_⟩
  · rw [← hexponent, Binary64.rankOfDecimal_append_zeros]
  intro rest hrest
  have hread := number_point negative hwhole (by simp) hone hrest
  rw [hvalue] at hread
  have htake : (Text.ofNat n).take (power.toNat + 1) = Text.ofNat n :=
    List.take_of_length_le hlength
  have hdrop : (Text.ofNat n).drop (power.toNat + 1) = [] := List.drop_of_length_le hlength
  have hzeros : power.toNat + 1 - (Text.ofNat n).length = k := by omega
  rw [layOut, if_pos ⟨by omega, hhigh⟩, if_neg (by omega)]
  simp only [htake, hdrop, hzeros, List.isEmpty_nil, if_true]
  simpa using hread

/-- The point stands between the digits. -/
theorem readsAs_layOut_between (hn : 0 < n) (hlow : 0 ≤ power) (hhigh : power < 16)
    (hlength : power.toNat + 1 < (Text.ofNat n).length) :
    ReadsAs negative (layOut (Text.ofNat n) power) ⟨n, power + 1 - (Text.ofNat n).length⟩ := by
  have hparts := List.take_append_drop (power.toNat + 1) (Text.ofNat n)
  have hall := allDigits_ofNat n
  obtain ⟨c, t, hdigits, hc, hzero, ht⟩ := exists_ofNat_eq_cons hn
  have hwhole : IsWhole ((Text.ofNat n).take (power.toNat + 1)) := by
    rw [hdigits, List.take_succ_cons]
    exact .cons hc hzero fun b hb => ht b (List.mem_of_mem_take hb)
  have hfraction : AllDigits ((Text.ofNat n).drop (power.toNat + 1)) :=
    fun b hb => hall b (List.mem_of_mem_drop hb)
  have hne : (Text.ofNat n).drop (power.toNat + 1) ≠ [] := by
    simpa using hlength
  have hexponent : -(((Text.ofNat n).drop (power.toNat + 1)).length : Int) =
      power + 1 - (Text.ofNat n).length := by
    rw [List.length_drop]
    omega
  -- The digits on both sides of the point are those of the number.
  refine ⟨_, rfl, ?_⟩
  intro rest hrest
  have hread := number_point negative hwhole hne hfraction hrest
  rw [hparts, digitsValue_ofNat, hexponent] at hread
  have htake : ((Text.ofNat n).take (power.toNat + 1)).length = power.toNat + 1 := by
    rw [List.length_take]
    omega
  have hsome : ((Text.ofNat n).drop (power.toNat + 1)).isEmpty = false := by simpa using hne
  rw [← hread, layOut, if_pos ⟨by omega, hhigh⟩, if_neg (by omega)]
  simp [htake, hsome]

/-- Beyond sixteen places there is one digit before the point, and an exponent. -/
theorem readsAs_layOut_power (hn : 0 < n) (hfar : ¬ (-4 ≤ power ∧ power < 16)) :
    ReadsAs negative (layOut (Text.ofNat n) power) ⟨n, power + 1 - (Text.ofNat n).length⟩ := by
  obtain ⟨c, t, hdigits, hc, hzero, ht⟩ := exists_ofNat_eq_cons hn
  have hwhole : IsWhole [c] := .cons hc hzero fun b hb => absurd hb List.not_mem_nil
  obtain ⟨zeros, hzeros⟩ : ∃ k, k = 2 - (Text.ofNat power.natAbs).length := ⟨_, rfl⟩
  have hpower : AllDigits (List.replicate zeros (.char '0') ++ Text.ofNat power.natAbs) :=
    (allDigits_replicate_zero _).append (allDigits_ofNat _)
  have hne : List.replicate zeros (.char '0') ++ Text.ofNat power.natAbs ≠ [] := by
    simp [ofNat_ne_nil power.natAbs]
  have hvalue : digitsValue (List.replicate zeros (.char '0') ++ Text.ofNat power.natAbs) =
      power.natAbs := by
    rw [digitsValue_zeros_append, digitsValue_ofNat]
  -- The exponent that is written counts from the first digit, the one that is read from the last.
  have hexponent : (if decide (power < 0) then -(power.natAbs : Int) else power.natAbs) -
      t.length = power + 1 - (Text.ofNat n).length := by
    rw [hdigits, List.length_cons]
    split
    · rename_i hbelow
      have hbelow : power < 0 := by simpa using hbelow
      omega
    · rename_i habove
      have habove : ¬ power < 0 := by simpa using habove
      omega
  have hpoint : (if (c :: t).length = 1 then [] else .char '.' :: t) = pointed t := by
    unfold pointed
    simp
  refine ⟨_, rfl, ?_⟩
  intro rest hrest
  have hread := number_power negative (decide (power < 0)) hwhole ht hne hpower
    hrest.digitsEnd
  rw [hvalue, hexponent, show [c] ++ t = Text.ofNat n from hdigits.symm, digitsValue_ofNat] at hread
  rw [← hread, layOut, if_neg hfar]
  simp only [← hzeros, hdigits, List.take_succ_cons, List.take_zero, List.drop_succ_cons,
    List.drop_zero, hpoint]
  simp

/-- Digits laid out with a point are read as the decimal they stand for. -/
theorem readsAs_layOut (negative : Bool) (hn : 0 < n) (power : Int) :
    ReadsAs negative (layOut (Text.ofNat n) power) ⟨n, power + 1 - (Text.ofNat n).length⟩ := by
  by_cases hnear : -4 ≤ power ∧ power < 16
  · obtain ⟨hlow, hhigh⟩ := hnear
    rcases Int.lt_or_le power 0 with hbelow | habove
    · exact readsAs_layOut_below hlow hbelow
    rcases Nat.lt_or_ge (power.toNat + 1) (Text.ofNat n).length with hbetween | hwhole
    · exact readsAs_layOut_between hn habove hhigh hbetween
    · exact readsAs_layOut_whole hn habove hhigh hwhole
  · exact readsAs_layOut_power hn hnear

end LayOut

/-! ## Numbers of double precision -/

theorem digits_shortest_pos {rank : Nat} (hrank : rank ≠ 0) : 0 < (shortest rank).digits := by
  have hread := Binary64.rankOfDecimal_shortest rank
  cases hd : shortest rank with
  | mk digits exponent =>
      rw [hd] at hread
      apply Nat.pos_of_ne_zero
      rintro rfl
      exact hrank (hread.symm.trans (Binary64.rankOfDecimal_zero exponent))

/-- A magnitude is read back from its text. -/
theorem number_magnitudeText (negative : Bool) (rank : Fin Binary64.finiteRanks)
    (hrest : Closed rest) :
    number negative (magnitudeText rank.val ++ rest) =
      .ok (.real (.finite negative rank), rest) := by
  -- Zero has no shortest digits; it is written out.
  by_cases hzero : rank.val = 0
  · have hread := number_point negative IsWhole.zero (List.cons_ne_nil (CodePoint.char '0') [])
      (allDigits_replicate_zero 1) hrest
    have hdigits : digitsValue ([.char '0'] ++ [.char '0']) = 0 := rfl
    rw [hdigits] at hread
    have hvalue : ∀ exponent, rankOfDecimal ⟨0, exponent⟩ = rank.val :=
      fun exponent => (Binary64.rankOfDecimal_zero exponent).trans hzero.symm
    rw [Binary64.ofDecimal_of_rankOfDecimal (hvalue _)] at hread
    rw [magnitudeText, if_pos hzero]
    exact hread
  · have hshortest := Binary64.rankOfDecimal_shortest rank.val
    have hpos := digits_shortest_pos hzero
    simp only [magnitudeText, if_neg hzero]
    generalize shortest rank.val = d at hshortest hpos ⊢
    obtain ⟨n, exponent⟩ := d
    obtain ⟨read, hread, hnumber⟩ :=
      readsAs_layOut negative hpos (exponent + (Text.ofNat n).length - 1)
    have hexponent : exponent + (Text.ofNat n).length - 1 + 1 - (Text.ofNat n).length =
        exponent := by omega
    simp only [hexponent] at hread
    rw [hnumber rest hrest, Binary64.ofDecimal_of_rankOfDecimal (hread.trans hshortest)]

/-! ## Numbers as values -/

/-- A character that a number begins with. -/
def IsNumberStart (c : CodePoint) : Prop :=
  isDigit c = true ∨ c = '-' ∨ c = 'N' ∨ c = 'I'

/-- No other kind of value begins like a number. -/
theorem IsNumberStart.ne (hc : IsNumberStart c) :
    isSpace c = false ∧ c ≠ ']' ∧ c ≠ '"' ∧ c ≠ '[' ∧ c ≠ '{' := by
  rcases hc with hdigit | rfl | rfl | rfl
  · have hne : ∀ d, isDigit d = false → c ≠ d := by
      rintro d hd rfl
      rw [hdigit] at hd
      contradiction
    simp [isSpace, hne ' ' rfl, hne '\t' rfl, hne '\n' rfl, hne '\r' rfl, hne ']' rfl,
      hne '"' rfl, hne '[' rfl, hne '{' rfl]
  · decide
  · decide
  · decide

theorem exists_cons_of_number {answer : Json × Text} (h : number negative t = .ok answer) :
    ∃ c u, t = c :: u ∧ isDigit c = true := by
  cases t with
  | nil => contradiction
  | cons c u =>
      refine ⟨c, u, rfl, ?_⟩
      by_cases hzero : c = '0'
      · rw [hzero]
        rfl
      · by_contra hdigit
        simp [number, wholeDigits?, hzero, hdigit] at h

/-- No word begins with a digit, and none has a digit behind a hyphen. -/
theorem scalarValue_signed (negative : Bool) (hc : isDigit c = true) :
    scalarValue (if negative then .char '-' :: c :: t else c :: t) = number negative (c :: t) := by
  have hne : ∀ d, isDigit d = false → d ≠ c := by
    rintro d hd rfl
    rw [hc] at hd
    contradiction
  cases negative with
  | false =>
      show scalarValue (c :: t) = _
      unfold scalarValue
      split
      · rename_i answer hword
        simp [words, Text.after?, hne 'n' rfl, hne 't' rfl, hne 'f' rfl, hne 'N' rfl,
          hne 'I' rfl, hne '-' rfl] at hword
      split
      · rename_i hhyphen
        exact absurd (List.cons.inj hhyphen).1.symm (hne '-' rfl)
      · rfl
  | true =>
      show scalarValue (.char '-' :: c :: t) = _
      unfold scalarValue
      split
      · rename_i answer hword
        simp [words, Text.after?, hne 'I' rfl] at hword
      · rfl

/-- A number that is read behind its sign is read with its sign. -/
theorem scalarValue_of_number {answer : Json × Text} (h : number negative t = .ok answer) :
    scalarValue (if negative then .char '-' :: t else t) = .ok answer := by
  obtain ⟨c, u, rfl, hc⟩ := exists_cons_of_number h
  rw [scalarValue_signed negative hc, h]

theorem exists_signed_eq_cons {answer : Json × Text} (h : number negative t = .ok answer) :
    ∃ c u, (if negative then .char '-' :: t else t) = c :: u ∧ IsNumberStart c := by
  obtain ⟨c, u, rfl, hc⟩ := exists_cons_of_number h
  cases negative with
  | false => exact ⟨c, u, rfl, Or.inl hc⟩
  | true => exact ⟨.char '-', c :: u, rfl, Or.inr (Or.inl rfl)⟩

theorem closed_nil : Closed [] := by
  intro c hc
  contradiction

/-! ### Integers -/

theorem ofInt_eq (n : Int) :
    Text.ofInt n =
      if decide (n < 0) then .char '-' :: Text.ofNat n.natAbs else Text.ofNat n.natAbs := by
  cases n with
  | ofNat n => rfl
  | negSucc n =>
      rw [decide_eq_true (Int.negSucc_lt_zero n)]
      rfl

theorem signed_append (negative : Bool) (t rest : Text) :
    (if negative then .char '-' :: t else t) ++ rest =
      if negative then .char '-' :: (t ++ rest) else t ++ rest := by
  cases negative with
  | false => rfl
  | true => rfl

/-- An integer is read back from its digits. -/
theorem scalarValue_ofInt {n : Int} (hdigits : (Text.ofNat n.natAbs).length ≤ maxIntegerDigits)
    (hrest : Closed rest) : scalarValue (Text.ofInt n ++ rest) = .ok (.int n, rest) := by
  have hread := number_ofNat (decide (n < 0)) hdigits hrest
  have hvalue : (if decide (n < 0) then -(n.natAbs : Int) else n.natAbs) = n := by
    by_cases hneg : n < 0
    · rw [decide_eq_true hneg, if_pos rfl]
      omega
    · rw [decide_eq_false hneg, if_neg Bool.false_ne_true]
      omega
  rw [hvalue] at hread
  rw [ofInt_eq, signed_append, scalarValue_of_number hread]

theorem exists_ofInt_eq_cons (n : Int) :
    ∃ c t, Text.ofInt n = c :: t ∧ IsNumberStart c := by
  obtain ⟨c, t, hcons⟩ := List.exists_cons_of_ne_nil (ofNat_ne_nil n.natAbs)
  have hc : isDigit c = true := allDigits_ofNat n.natAbs c (hcons ▸ List.mem_cons_self)
  rw [ofInt_eq, hcons]
  split
  · exact ⟨'-', _, rfl, Or.inr (Or.inl rfl)⟩
  · exact ⟨c, t, rfl, Or.inl hc⟩

/-! ### Numbers of double precision -/

/-- A number of double precision is read back from its text. -/
theorem scalarValue_writeReal (x : Binary64) (hrest : Closed rest) :
    scalarValue (writeReal x ++ rest) = .ok (.real x, rest) := by
  cases x with
  | finite negative rank =>
      have hread := number_magnitudeText negative rank hrest
      show scalarValue ((if negative then .char '-' :: magnitudeText rank.val
        else magnitudeText rank.val) ++ rest) = _
      rw [signed_append, scalarValue_of_number hread]
  | infinite negative =>
      cases negative with
      | false => rfl
      | true => rfl
  | notANumber => rfl

theorem exists_writeReal_eq_cons (x : Binary64) :
    ∃ c t, writeReal x = c :: t ∧ IsNumberStart c := by
  cases x with
  | finite negative rank =>
      have hread := number_magnitudeText negative rank closed_nil
      rw [List.append_nil] at hread
      exact exists_signed_eq_cons hread
  | infinite negative =>
      cases negative with
      | false => exact ⟨'I', _, rfl, Or.inr (Or.inr (Or.inr rfl))⟩
      | true => exact ⟨'-', _, rfl, Or.inr (Or.inl rfl)⟩
  | notANumber => exact ⟨'N', _, rfl, Or.inr (Or.inr (Or.inl rfl))⟩

end Lifeline.Json
