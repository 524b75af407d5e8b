import Lifeline.Proofs.Share.Truncation

/-!
# The codes that the decoder accepts

The decoder knows one phrase more at each place, and it also takes the code of the phrase that
is being learned there.  So the code at a place is accepted when it lies between zero and 255
plus the place, whatever codes stand around it (`Known`), and codes are refused for the first
one that does not (`decompress_accepts`).  No phrase is empty, so every further code adds to
the text.
-/

namespace Lifeline.Share.Lzw

variable {learned : Array Text} {w t : Text} {place i : Nat} {code : Int} {codes : List Int}

/-- A code is that of a phrase known at a place, or of the phrase that is being learned there.
No phrase is learned at the place zero. -/
def Known (place : Nat) (code : Int) : Prop :=
  0 ≤ code ∧ code ≤ 255 + place

instance (place : Nat) (code : Int) : Decidable (Known place code) :=
  inferInstanceAs (Decidable (0 ≤ code ∧ code ≤ 255 + place))

/-- All codes are known at their places, the first of which is given. -/
def AllKnown (place : Nat) (codes : List Int) : Prop :=
  ∀ (i : Nat) (hi : i < codes.length), Known (place + i) codes[i]

/-- How an unknown code at a place is refused. -/
def refusal (place : Nat) (code : Int) : DecodeError :=
  if place = 0 then .notSeed code else .unknownCode code

/-! ## One code -/

/-- The phrases in the array are those known at the place behind the codes that taught them; the
first code teaches none. -/
theorem exists_phrase?_iff :
    (∃ phrase, phrase? learned code = some phrase) ↔ Known learned.size code := by
  rw [phrase?, Known, seedSize]
  by_cases hneg : code < 0
  · rw [if_pos hneg]
    exact iff_of_false (by simp) (by omega)
  · rw [if_neg hneg]
    by_cases hseed : code < (256 : Nat)
    · rw [if_pos hseed]
      exact iff_of_true ⟨_, rfl⟩ (by omega)
    · rw [if_neg hseed, ← Option.isSome_iff_exists, isSome_getElem?]
      omega

theorem phrase?_eq_none (hcode : ¬ Known learned.size code) : phrase? learned code = none := by
  rw [Option.eq_none_iff_forall_ne_some]
  exact fun phrase hphrase => hcode (exists_phrase?_iff.mp ⟨phrase, hphrase⟩)

theorem exists_seedPhrase?_iff : (∃ phrase, phrase? #[] code = some phrase) ↔ Known 0 code :=
  exists_phrase?_iff

theorem exists_nextPhrase?_iff :
    (∃ phrase, nextPhrase? learned w code = some phrase) ↔ Known (learned.size + 1) code := by
  rw [nextPhrase?]
  cases hphrase : phrase? learned code with
  | some phrase =>
      have hknown : Known learned.size code := exists_phrase?_iff.mp ⟨phrase, hphrase⟩
      rw [Known] at hknown ⊢
      exact iff_of_true ⟨phrase, rfl⟩ (by omega)
  | none =>
      have hunknown : ¬ Known learned.size code := by
        rw [← exists_phrase?_iff, hphrase]
        simp
      rw [Known] at hunknown ⊢
      rw [seedSize]
      by_cases hnext : code = (256 + learned.size : Nat)
      · rw [if_pos hnext]
        exact iff_of_true ⟨_, rfl⟩ (by omega)
      · rw [if_neg hnext]
        exact iff_of_false (by simp) (by omega)

theorem nextPhrase?_eq_none (hcode : ¬ Known (learned.size + 1) code) :
    nextPhrase? learned w code = none := by
  rw [Option.eq_none_iff_forall_ne_some]
  exact fun phrase hphrase => hcode (exists_nextPhrase?_iff.mp ⟨phrase, hphrase⟩)

/-! ## A run of the decoder -/

theorem allKnown_cons :
    AllKnown place (code :: codes) ↔ Known place code ∧ AllKnown (place + 1) codes := by
  have hplace : ∀ i, place + 1 + i = place + (i + 1) := fun i => by omega
  constructor
  · intro h
    refine ⟨h 0 (Nat.succ_pos _), fun i hi => ?_⟩
    rw [hplace]
    exact h (i + 1) (Nat.succ_lt_succ hi)
  · rintro ⟨hcode, hcodes⟩ i hi
    cases i with
    | zero => exact hcode
    | succ i =>
        have hinside : i < codes.length := Nat.lt_of_succ_lt_succ hi
        show Known (place + (i + 1)) codes[i]
        rw [← hplace]
        exact hcodes i hinside

/-- Known codes are read, by induction on them: each one teaches a phrase, so that there is one
more for the codes behind it. -/
theorem exists_decompressFrom_eq_ok (hcodes : AllKnown (learned.size + 1) codes) :
    ∃ t, decompressFrom learned w codes = .ok t := by
  induction codes generalizing learned w with
  | nil => exact ⟨[], rfl⟩
  | cons code codes ih =>
      obtain ⟨hcode, hcodes⟩ := allKnown_cons.mp hcodes
      obtain ⟨phrase, hphrase⟩ := exists_nextPhrase?_iff.mpr hcode
      rw [← Array.size_push (w ++ phrase.take 1)] at hcodes
      obtain ⟨later, hlater⟩ := ih hcodes
      exact ⟨_, decompressFrom_cons_eq_ok_iff.mpr ⟨phrase, later, hphrase, hlater, rfl⟩⟩

theorem decompressFrom_eq_error (hi : i < codes.length)
    (hbefore : ∀ (j : Nat) (hj : j < i), Known (learned.size + 1 + j) codes[j])
    (hcode : ¬ Known (learned.size + 1 + i) codes[i]) :
    decompressFrom learned w codes = .error (.unknownCode codes[i]) := by
  induction codes generalizing learned w i with
  | nil => contradiction
  | cons code codes ih =>
      cases i with
      | zero =>
          have hnone : nextPhrase? learned w code = none := nextPhrase?_eq_none hcode
          rw [decompressFrom, hnone, List.getElem_cons_zero]
      | succ i =>
          have hinside : i < codes.length := Nat.lt_of_succ_lt_succ hi
          have hfirst : Known (learned.size + 1) code := hbefore 0 (Nat.succ_pos i)
          obtain ⟨phrase, hphrase⟩ := (exists_nextPhrase?_iff (w := w)).mpr hfirst
          -- Each code teaches one phrase, so the bound moves with the place.
          have hplace : ∀ j, (learned.push (w ++ phrase.take 1)).size + 1 + j =
              learned.size + 1 + (j + 1) := by
            intro j
            rw [Array.size_push]
            omega
          have hrest : decompressFrom (learned.push (w ++ phrase.take 1)) phrase codes =
              .error (.unknownCode codes[i]) := by
            apply ih hinside
            · intro j hj
              rw [hplace]
              exact hbefore (j + 1) (Nat.succ_lt_succ hj)
            · rw [hplace]
              exact hcode
          simp only [decompressFrom, hphrase, hrest, List.getElem_cons_succ]

/-- The first code is looked up in the seed, the others behind a phrase. -/
theorem exists_decompress_eq_ok (hcodes : AllKnown 0 codes) : ∃ t, decompress codes = .ok t := by
  cases codes with
  | nil => exact ⟨[], rfl⟩
  | cons code codes =>
      obtain ⟨hcode, hcodes⟩ := allKnown_cons.mp hcodes
      obtain ⟨phrase, hphrase⟩ := exists_seedPhrase?_iff.mpr hcode
      obtain ⟨later, hlater⟩ : ∃ t, decompressFrom #[] phrase codes = .ok t :=
        exists_decompressFrom_eq_ok hcodes
      exact ⟨_, decompress_cons_eq_ok_iff.mpr ⟨phrase, later, hphrase, hlater, rfl⟩⟩

theorem decompress_eq_error (hi : i < codes.length)
    (hbefore : ∀ (j : Nat) (hj : j < i), Known j codes[j]) (hcode : ¬ Known i codes[i]) :
    decompress codes = .error (refusal i codes[i]) := by
  cases codes with
  | nil => contradiction
  | cons code codes =>
      -- The first code has to be a seed; behind it the loop takes over.
      cases i with
      | zero =>
          have hnone : phrase? #[] code = none := phrase?_eq_none hcode
          rw [decompress, hnone]
          rfl
      | succ i =>
          have hinside : i < codes.length := Nat.lt_of_succ_lt_succ hi
          have hfirst : Known 0 code := hbefore 0 (Nat.succ_pos i)
          obtain ⟨phrase, hphrase⟩ := exists_seedPhrase?_iff.mpr hfirst
          have hplace : ∀ j, (#[] : Array Text).size + 1 + j = j + 1 := fun j => Nat.add_comm 1 j
          have hrest : decompressFrom #[] phrase codes = .error (.unknownCode codes[i]) := by
            apply decompressFrom_eq_error hinside
            · intro j hj
              rw [hplace]
              exact hbefore (j + 1) (Nat.succ_lt_succ hj)
            · rw [hplace]
              exact hcode
          simp only [decompress, hphrase, hrest, List.getElem_cons_succ, refusal,
            Nat.succ_ne_zero, if_false]

/-! ## The accepted codes -/

/-- Where not all codes are known there is a first one that is not. -/
theorem exists_first_unknown (hcodes : ¬ AllKnown 0 codes) :
    ∃ (i : Nat) (hi : i < codes.length),
      (∀ (j : Nat) (hj : j < i), Known j codes[j]) ∧ ¬ Known i codes[i] := by
  classical
  have hsome : ∃ i, ∃ hi : i < codes.length, ¬ Known i codes[i] := by
    simpa [AllKnown] using hcodes
  obtain ⟨hi, hunknown⟩ := Nat.find_spec hsome
  refine ⟨Nat.find hsome, hi, fun j hj => ?_, hunknown⟩
  by_contra hother
  exact Nat.find_min hsome hj ⟨hj.trans hi, hother⟩

theorem allKnown_zero_iff :
    AllKnown 0 codes ↔ ∀ (i : Nat) (hi : i < codes.length), Known i codes[i] := by
  simp only [AllKnown, Nat.zero_add]

theorem exists_decompress_eq_ok_iff : (∃ t, decompress codes = .ok t) ↔ AllKnown 0 codes := by
  refine ⟨?_, exists_decompress_eq_ok⟩
  rintro ⟨t, ht⟩
  by_contra hunknown
  obtain ⟨i, hi, hbefore, hcode⟩ := exists_first_unknown hunknown
  rw [decompress_eq_error hi hbefore hcode] at ht
  contradiction

theorem exists_of_decompress_eq_error {e : DecodeError} (h : decompress codes = .error e) :
    ∃ (i : Nat) (hi : i < codes.length),
      (∀ (j : Nat) (hj : j < i), Known j codes[j]) ∧ ¬ Known i codes[i] ∧
        e = refusal i codes[i] := by
  have hunknown : ¬ AllKnown 0 codes := by
    intro hcodes
    obtain ⟨t, ht⟩ := exists_decompress_eq_ok hcodes
    rw [h] at ht
    contradiction
  obtain ⟨i, hi, hbefore, hcode⟩ := exists_first_unknown hunknown
  rw [decompress_eq_error hi hbefore hcode] at h
  exact ⟨i, hi, hbefore, hcode, (Except.error.inj h).symm⟩

/-! ## Fewer codes -/

theorem AllKnown.take (h : AllKnown place codes) (k : Nat) : AllKnown place (codes.take k) := by
  intro i hi
  rw [List.getElem_take]
  exact h i (lt_of_lt_of_le hi (List.length_take_le' k codes))

theorem properPrefix_take {k : Nat} (hk : k < codes.length) :
    ProperPrefix (codes.take k) codes := by
  have hsplit : codes = codes.take k ++ codes[k] :: codes.drop (k + 1) := by
    rw [← List.drop_eq_getElem_cons hk, List.take_append_drop]
  exact properPrefix_iff.mpr ⟨codes[k], codes.drop (k + 1), hsplit⟩

/-- The codes in front of a place give the front of the text, and less than the whole of it where
codes are left out. -/
theorem exists_decompress_take (h : decompress codes = .ok t) (k : Nat) :
    ∃ u, decompress (codes.take k) = .ok u ∧ u <+: t ∧
      (k < codes.length → ProperPrefix u t) := by
  obtain ⟨u, hu⟩ := exists_decompress_eq_ok ((exists_decompress_eq_ok_iff.mp ⟨t, h⟩).take k)
  by_cases hk : k < codes.length
  · have hproper : ProperPrefix u t := properPrefix_of_decompress (properPrefix_take hk) h hu
    exact ⟨u, hu, hproper.1, fun _ => hproper⟩
  · rw [List.take_of_length_le (Nat.le_of_not_lt hk)]
    exact ⟨t, h, List.prefix_refl t, fun hlt => absurd hlt hk⟩

/-- Codes are read exactly when each is known at its place, and otherwise they are refused for
the first one that is not.  Of codes that are read any number from the front is read too, as a
beginning of the text, and as less than the text when some are left out. -/
theorem decompress_accepts (codes : List Int) :
    ((∃ t, decompress codes = .ok t) ↔
        ∀ (i : Nat) (hi : i < codes.length), Known i codes[i]) ∧
      (∀ e, decompress codes = .error e ↔
        ∃ (i : Nat) (hi : i < codes.length),
          (∀ (j : Nat) (hj : j < i), Known j codes[j]) ∧ ¬ Known i codes[i] ∧
            e = refusal i codes[i]) ∧
      ∀ t, decompress codes = .ok t → ∀ k,
        ∃ u, decompress (codes.take k) = .ok u ∧ u <+: t ∧
          (k < codes.length → ProperPrefix u t) := by
  refine ⟨?_, fun e => ⟨exists_of_decompress_eq_error, ?_⟩, fun t ht => exists_decompress_take ht⟩
  · rw [exists_decompress_eq_ok_iff, allKnown_zero_iff]
  · rintro ⟨i, hi, hbefore, hcode, rfl⟩
    exact decompress_eq_error hi hbefore hcode

/-- The first codes end with that of a phrase that is being learned; of the second ones two are
unknown, and the code 256 in front of them is not. -/
theorem decompress_accepts_overlapping :
    (∃ t, decompress [65, 66, 256, 258] = .ok t ∧
        ∃ u, decompress [65, 66, 256] = .ok u ∧ ProperPrefix u t) ∧
      decompress [65, 256, 999, 5000] = .error (.unknownCode 999) ∧
      decompress [256] = .error (.notSeed 256) := by
  obtain ⟨hread, -, hfront⟩ := decompress_accepts [65, 66, 256, 258]
  obtain ⟨t, ht⟩ := hread.mpr (by decide)
  obtain ⟨u, hu, -, hproper⟩ := hfront t ht 3
  refine ⟨⟨t, ht, u, hu, hproper (by decide)⟩, ?_, ?_⟩
  · exact ((decompress_accepts [65, 256, 999, 5000]).2.1 _).mpr
      ⟨2, by decide, by decide, by decide, rfl⟩
  · exact ((decompress_accepts [256]).2.1 _).mpr ⟨0, by decide, by decide, by decide, rfl⟩

end Lifeline.Share.Lzw
