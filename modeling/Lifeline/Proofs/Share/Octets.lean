import Lifeline.Proofs.Text.Utf8
import Lifeline.Share.Base64
import Lifeline.Share.Packing
import Mathlib.Data.List.TakeWhile

/-!
# Octets and what they carry

Packed integers are read back one by one, since the highest bit of an octet
tells where an integer ends.  Base 64 is taken apart into two steps: the octets
as numbers of six bits, `Base64.sextets`, and these as digits.
-/

namespace Lifeline.Share

namespace Packing

/-- An octet below 128 ends an integer. -/
theorem unpackFrom_last {value count : Nat} {b : UInt8} {rest : Bytes} (hcount : count < 3)
    (hb : b.toNat < 128) :
    unpackFrom value count (b :: rest) =
      (unpackFrom 0 0 rest).map ((value * 128 + b.toNat) :: ·) := by
  rw [unpackFrom, if_neg (Nat.not_le.mpr hcount), if_pos hb]
  cases unpackFrom 0 0 rest <;> rfl

/-- An octet from 128 on is followed by another one of the same integer. -/
theorem unpackFrom_more {value count : Nat} {b : UInt8} {rest : Bytes} (hcount : count < 3)
    (hb : 128 ≤ b.toNat) :
    unpackFrom value count (b :: rest) =
      unpackFrom (value * 128 + (b.toNat - 128)) (count + 1) rest := by
  rw [unpackFrom, if_neg (Nat.not_le.mpr hcount), if_neg (Nat.not_lt.mpr hb)]

/-- The octets of an integer are read as this integer, whatever follows. -/
theorem unpackFrom_octets_append {n : Nat} (hn : n < limit) (rest : Bytes) :
    unpackFrom 0 0 (octets n ++ rest) = (unpackFrom 0 0 rest).map (n :: ·) := by
  simp only [limit] at hn
  rw [octets]
  -- One octet, two or three: each holds seven bits, the front ones with 128 added.
  split
  · rename_i hsmall
    have hb := toNat_octet (n := n) (by omega)
    rw [List.singleton_append, unpackFrom_last (by omega) (by omega), hb]
    simp
  split
  · rename_i hsmall hmedium
    have hfirst := toNat_octet (n := 128 + n / 128) (by omega)
    have hlast := toNat_octet (n := n % 128) (by omega)
    rw [List.cons_append, List.singleton_append, unpackFrom_more (by omega) (by omega),
      unpackFrom_last (by omega) (by omega), hfirst, hlast]
    have hvalue : (0 * 128 + (128 + n / 128 - 128)) * 128 + n % 128 = n := by omega
    rw [hvalue]
  · rename_i hsmall hmedium
    have hfirst := toNat_octet (n := 128 + n / 16384) (by omega)
    have hmiddle := toNat_octet (n := 128 + n / 128 % 128) (by omega)
    have hlast := toNat_octet (n := n % 128) (by omega)
    rw [List.cons_append, List.cons_append, List.singleton_append,
      unpackFrom_more (by omega) (by omega), unpackFrom_more (by omega) (by omega),
      unpackFrom_last (by omega) (by omega), hfirst, hmiddle, hlast]
    have hvalue : ((0 * 128 + (128 + n / 16384 - 128)) * 128 + (128 + n / 128 % 128 - 128)) * 128 +
        n % 128 = n := by omega
    rw [hvalue]

/-- All octets of an integer but the last have the highest bit set. -/
theorem exists_octets_eq_append {n : Nat} (hn : n < limit) :
    ∃ front last, octets n = front ++ [last] ∧ (∀ b ∈ front, 128 ≤ b.toNat) ∧
      last.toNat < 128 := by
  simp only [limit] at hn
  rw [octets]
  split
  · refine ⟨[], _, rfl, by simp, ?_⟩
    rw [toNat_octet (by omega)]
    omega
  split
  · refine ⟨[UInt8.ofNat (128 + n / 128)], _, rfl, ?_, ?_⟩
    · rw [List.forall_mem_singleton, toNat_octet (by omega)]
      omega
    · rw [toNat_octet (by omega)]
      omega
  · refine ⟨[UInt8.ofNat (128 + n / 16384), UInt8.ofNat (128 + n / 128 % 128)], _, rfl, ?_, ?_⟩
    · rw [List.forall_mem_cons, List.forall_mem_singleton, toNat_octet (by omega),
        toNat_octet (by omega)]
      omega
    · rw [toNat_octet (by omega)]
      omega

theorem pack_cons_eq_ok_iff {n : Nat} {ns : List Nat} {bytes : Bytes} :
    pack ((n :: ns).map Int.ofNat) = .ok bytes ↔
      n < limit ∧ ∃ later, pack (ns.map Int.ofNat) = .ok later ∧ bytes = octets n ++ later := by
  have hrange : (Int.ofNat n < 0 ∨ (limit : Int) ≤ Int.ofNat n) ↔ ¬ n < limit := by
    simp only [Int.ofNat_eq_natCast]
    omega
  rw [List.map_cons, pack]
  simp only [hrange]
  by_cases hn : n < limit
  · rw [if_neg (not_not_intro hn)]
    cases hlater : pack (ns.map Int.ofNat) with
    | ok later => simp [hn, eq_comm]
    | error e => simp
  · rw [if_pos hn]
    simp [hn]

/-- Integers are packed when all are below the limit, and only then. -/
theorem exists_pack_eq_ok_iff {ns : List Nat} :
    (∃ bytes, pack (ns.map Int.ofNat) = .ok bytes) ↔ ∀ n ∈ ns, n < limit := by
  induction ns with
  | nil => simp [pack]
  | cons n ns ih =>
      rw [List.forall_mem_cons, ← ih]
      simp only [pack_cons_eq_ok_iff]
      constructor
      · rintro ⟨bytes, hn, later, hlater, -⟩
        exact ⟨hn, later, hlater⟩
      · rintro ⟨hn, later, hlater⟩
        exact ⟨_, hn, later, hlater, rfl⟩

/-- Packed integers are read back. -/
theorem unpack_of_pack {ns : List Nat} {bytes : Bytes}
    (h : pack (ns.map Int.ofNat) = .ok bytes) : unpack bytes = .ok ns := by
  induction ns generalizing bytes with
  | nil =>
      obtain rfl : [] = bytes := Except.ok.inj h
      rfl
  | cons n ns ih =>
      obtain ⟨hn, later, hlater, rfl⟩ := pack_cons_eq_ok_iff.mp h
      have hrest : unpackFrom 0 0 later = .ok ns := ih hlater
      rw [unpack, unpackFrom_octets_append hn, hrest]
      rfl

end Packing

namespace Base64

/-- The numbers of six bits that octets are cut into; the last one is filled up
with zeros. -/
def sextets : Bytes → List Nat
  | [] => []
  | [a] => [a.toNat / 4, a.toNat % 4 * 16]
  | [a, b] => [a.toNat / 4, a.toNat % 4 * 16 + b.toNat / 16, b.toNat % 16 * 4]
  | a :: b :: c :: rest =>
      a.toNat / 4 :: (a.toNat % 4 * 16 + b.toNat / 16) :: (b.toNat % 16 * 4 + c.toNat / 64) ::
        c.toNat % 64 :: sextets rest

theorem encode_eq_map_digit (bytes : Bytes) : encode bytes = (sextets bytes).map digit := by
  induction bytes using sextets.induct with
  | case1 => rfl
  | case2 a => rfl
  | case3 a b => rfl
  | case4 a b c rest ih => simp [encode, sextets, ih]

theorem lt_of_mem_sextets {bytes : Bytes} : ∀ n ∈ sextets bytes, n < 64 := by
  induction bytes using sextets.induct with
  | case1 => simp [sextets]
  | case2 a =>
      have ha := a.toNat_lt
      simp only [sextets, List.forall_mem_cons]
      exact ⟨by omega, by omega, by simp⟩
  | case3 a b =>
      have ha := a.toNat_lt
      have hb := b.toNat_lt
      simp only [sextets, List.forall_mem_cons]
      exact ⟨by omega, by omega, by omega, by simp⟩
  | case4 a b c rest ih =>
      have ha := a.toNat_lt
      have hb := b.toNat_lt
      have hc := c.toNat_lt
      simp only [sextets, List.forall_mem_cons]
      exact ⟨by omega, by omega, by omega, by omega, ih⟩

/-- No group is cut after its first number. -/
theorem length_sextets_mod_ne_one (bytes : Bytes) : (sextets bytes).length % 4 ≠ 1 := by
  induction bytes using sextets.induct with
  | case1 => simp [sextets]
  | case2 a => simp [sextets]
  | case3 a b => simp [sextets]
  | case4 a b c rest ih =>
      simp only [sextets, List.length_cons]
      omega

theorem octets_sextets (bytes : Bytes) : octets (sextets bytes) = bytes := by
  -- Three octets at a time; one or two are left at the end.
  induction bytes using sextets.induct with
  | case1 => rfl
  | case2 a =>
      have hfirst := ofNat_eq_of_toNat (n := a.toNat / 4 * 4 + a.toNat % 4 * 16 / 16) (b := a)
        (by omega)
      simp only [sextets, octets, hfirst]
  | case3 a b =>
      have hb := b.toNat_lt
      have hfirst := ofNat_eq_of_toNat (b := a)
        (n := a.toNat / 4 * 4 + (a.toNat % 4 * 16 + b.toNat / 16) / 16) (by omega)
      have hsecond := ofNat_eq_of_toNat (b := b)
        (n := (a.toNat % 4 * 16 + b.toNat / 16) % 16 * 16 + b.toNat % 16 * 4 / 4) (by omega)
      simp only [sextets, octets, hfirst, hsecond]
  | case4 a b c rest ih =>
      have hb := b.toNat_lt
      have hc := c.toNat_lt
      have hfirst := ofNat_eq_of_toNat (b := a)
        (n := a.toNat / 4 * 4 + (a.toNat % 4 * 16 + b.toNat / 16) / 16) (by omega)
      have hsecond := ofNat_eq_of_toNat (b := b)
        (n := (a.toNat % 4 * 16 + b.toNat / 16) % 16 * 16 + (b.toNat % 16 * 4 + c.toNat / 64) / 4)
        (by omega)
      have hthird := ofNat_eq_of_toNat (b := c)
        (n := (b.toNat % 16 * 4 + c.toNat / 64) % 4 * 64 + c.toNat % 64) (by omega)
      simp only [sextets, octets, hfirst, hsecond, hthird, ih]

/-- A digit has its value and is no padding. -/
theorem value?_digit : ∀ n < 64, value? (digit n) = some n ∧ digit n ≠ '=' := by
  decide +kernel

theorem values?_map_digit {ns : List Nat} (hns : ∀ n ∈ ns, n < 64) :
    values? (ns.map digit) = some ns := by
  induction ns with
  | nil => rfl
  | cons n ns ih =>
      obtain ⟨hn, hns⟩ := List.forall_mem_cons.mp hns
      rw [List.map_cons, values?, (value?_digit n hn).1, ih hns]
      rfl

/-- Digits are read as octets, unless a group ends after its first digit. -/
theorem decode_map_digit {ns : List Nat} (hns : ∀ n ∈ ns, n < 64) :
    decode (ns.map digit) =
      if ns.length % 4 = 1 then .error .notBase64 else .ok (octets ns) := by
  have hdigits : ∀ c ∈ ns.map digit, c ≠ '=' := by
    intro c hc
    obtain ⟨n, hn, rfl⟩ := List.mem_map.mp hc
    exact (value?_digit n (hns n hn)).2
  have htake : (ns.map digit).takeWhile (· ≠ .char '=') = ns.map digit := by
    rw [List.takeWhile_eq_self_iff]
    simpa using hdigits
  have hdrop : (ns.map digit).dropWhile (· ≠ .char '=') = [] := by
    rw [List.dropWhile_eq_nil_iff]
    simpa using hdigits
  -- The reader fills up what is missing of the last group, and one digit alone cannot be filled up.
  have hfits : paddingFits ns.length ((4 - ns.length % 4) % 4) = !decide (ns.length % 4 = 1) := by
    have hcases : ns.length % 4 = 0 ∨ ns.length % 4 = 1 ∨ ns.length % 4 = 2 ∨
        ns.length % 4 = 3 := by omega
    rcases hcases with h | h | h | h
    · simp [paddingFits, h]
    · simp [paddingFits, h]
    · simp [paddingFits, h]
    · simp [paddingFits, h]
  simp only [decode, htake, hdrop, values?_map_digit hns, List.all_nil, List.length_nil,
    List.length_map, Nat.zero_add, hfits, Bool.true_and]
  by_cases hone : ns.length % 4 = 1
  · simp [hone]
  · simp [hone]

/-- Octets in base 64 are read back. -/
theorem decode_encode (bytes : Bytes) : decode (encode bytes) = .ok bytes := by
  rw [encode_eq_map_digit, decode_map_digit lt_of_mem_sextets,
    if_neg (length_sextets_mod_ne_one bytes), octets_sextets]

end Base64
end Lifeline.Share
