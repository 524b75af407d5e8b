import Lifeline.Proofs.Share.Transport
import Lifeline.Proofs.Text.Lines

/-!
# Packed integers

Any integers from zero up to the limit have a token and are read back from it; one
integer out of this range is enough to have none (`tokenOfNumbers_roundTrip`).

In the other direction the octets need not come from the packing.  Every octet below 128 ends
an integer, so octets fall into the groups of `numerals`.  They are unpacked exactly when the
last group is ended and no group has more than three octets (`unpack_wellFormed`).  Packed
again, the integers take the same octets, unless one of them was written with a first octet
that stands for seven zero bits: then they take fewer.
-/

namespace Lifeline.Share

/-! ## Tokens of integers -/

namespace Packing

variable {codes : List Int}

/-- An integer has a packed form. -/
def InRange (n : Int) : Prop :=
  0 ≤ n ∧ n < 2 ^ 21

theorem not_inRange_iff {n : Int} : ¬ InRange n ↔ n < 0 ∨ (limit : Int) ≤ n := by
  simp only [InRange, limit]
  omega

/-- All integers have a packed form, or there is a first one that has none. -/
theorem inRange_cases (codes : List Int) :
    (∀ n ∈ codes, InRange n) ∨
      ∃ before n behind, codes = before ++ n :: behind ∧ (∀ m ∈ before, InRange m) ∧
        ¬ InRange n := by
  induction codes with
  | nil => exact Or.inl (List.forall_mem_nil _)
  | cons code codes ih =>
      by_cases hcode : InRange code
      · rcases ih with hall | ⟨before, n, behind, rfl, hbefore, hn⟩
        · exact Or.inl (List.forall_mem_cons.mpr ⟨hcode, hall⟩)
        · have hlonger := List.forall_mem_cons.mpr ⟨hcode, hbefore⟩
          exact Or.inr ⟨code :: before, n, behind, rfl, hlonger, hn⟩
      · exact Or.inr ⟨[], code, codes, rfl, List.forall_mem_nil _, hcode⟩

theorem pack_eq_error {before behind : List Int} {n : Int} (hbefore : ∀ m ∈ before, InRange m)
    (hn : ¬ InRange n) : pack (before ++ n :: behind) = .error (.outOfRange n) := by
  induction before with
  | nil => rw [List.nil_append, pack, if_pos (not_inRange_iff.mp hn)]
  | cons m before ih =>
      obtain ⟨hm, hbefore⟩ := List.forall_mem_cons.mp hbefore
      rw [List.cons_append, pack, if_neg fun h => not_inRange_iff.mpr h hm, ih hbefore]

/-- Integers with a packed form are natural numbers below the limit. -/
theorem exists_map_ofNat_eq (h : ∀ n ∈ codes, InRange n) :
    ∃ ns : List Nat, ns.map Int.ofNat = codes ∧ ∀ n ∈ ns, n < limit := by
  refine ⟨codes.map Int.toNat, ?_, ?_⟩
  · rw [List.map_map]
    exact (List.map_congr_left fun n hn => Int.toNat_of_nonneg (h n hn).1).trans (List.map_id codes)
  · intro n hn
    obtain ⟨m, hm, rfl⟩ := List.mem_map.mp hn
    have hrange := h m hm
    simp only [InRange, limit] at hrange ⊢
    omega

end Packing

/-- Integers have no token exactly when one of them is negative or too large, and then the first
such one is named.  Else they have a token of letters, digits, hyphens and underscores, and are
read back from it.  Octets in base 64 are read back in any case. -/
theorem tokenOfNumbers_roundTrip (codes : List Int) :
    ((∃ e, tokenOfNumbers codes = .error e) ↔ ∃ n ∈ codes, n < 0 ∨ 2 ^ 21 ≤ n) ∧
      (∀ e, tokenOfNumbers codes = .error e →
        ∃ before n behind, codes = before ++ n :: behind ∧
          (∀ m ∈ before, Packing.InRange m) ∧ ¬ Packing.InRange n ∧ e = .outOfRange n) ∧
      ((∀ n ∈ codes, 0 ≤ n ∧ n < 2 ^ 21) →
        ∃ token ns, tokenOfNumbers codes = .ok token ∧ (∀ c ∈ token, isLinkSafe c = true) ∧
          numbersOfToken token = .ok ns ∧ ns.map Int.ofNat = codes) ∧
      ∀ bytes, Base64.decode (Base64.encode bytes) = .ok bytes := by
  -- Either all integers are in range, or there is a first one that is not.
  rcases Packing.inRange_cases codes with hall | ⟨before, n, behind, rfl, hbefore, hn⟩
  · obtain ⟨ns, hcodes, hns⟩ := Packing.exists_map_ofNat_eq hall
    obtain ⟨bytes, hbytes⟩ := Packing.exists_pack_eq_ok_iff.mpr hns
    have htoken : tokenOfNumbers codes = .ok (Base64.encode bytes) := by
      rw [tokenOfNumbers, ← hcodes, hbytes]
    refine ⟨?_, ?_, fun _ => ?_, Base64.decode_encode⟩
    · rw [htoken]
      refine iff_of_false (by simp) ?_
      rintro ⟨n, hn, hout⟩
      exact Packing.not_inRange_iff.mpr hout (hall n hn)
    · intro e he
      rw [htoken] at he
      contradiction
    · exact ⟨_, ns, htoken, fun c hc => isLinkSafe_of_mem_encode hc, numbersOfToken_encode hbytes,
        hcodes⟩
  · have htoken : tokenOfNumbers (before ++ n :: behind) = .error (.outOfRange n) := by
      rw [tokenOfNumbers, Packing.pack_eq_error hbefore hn]
    have hmem : n ∈ before ++ n :: behind := by simp
    refine ⟨?_, ?_, ?_, Base64.decode_encode⟩
    · exact iff_of_true ⟨_, htoken⟩ ⟨n, hmem, Packing.not_inRange_iff.mp hn⟩
    · intro e he
      rw [htoken] at he
      exact ⟨before, n, behind, rfl, hbefore, hn, (Except.error.inj he).symm⟩
    · intro hall
      exact absurd (hall n hmem) hn

/-- The integers around the lengths of one, two and three octets. -/
theorem tokenOfNumbers_roundTrip_lengths :
    ∃ token, tokenOfNumbers [127, 128, 16383, 16384, 2097151, 0] = .ok token ∧
      (∀ c ∈ token, isLinkSafe c = true) ∧
      numbersOfToken token = .ok [127, 128, 16383, 16384, 2097151, 0] := by
  obtain ⟨token, ns, htoken, hsafe, hread, hns⟩ :=
    (tokenOfNumbers_roundTrip [127, 128, 16383, 16384, 2097151, 0]).2.2.1 (by decide)
  obtain rfl : ns = [127, 128, 16383, 16384, 2097151, 0] :=
    (List.map_injective_iff.mpr fun a b hab => Int.ofNat.inj hab) hns
  exact ⟨token, htoken, hsafe, hread⟩

/-! ## Unpacking -/

namespace Packing

variable {bytes front rest behind run : Bytes} {b last : UInt8} {value count : Nat} {ns : List Nat}

/-- Octets that leave an integer unfinished. -/
def Unfinished (front : Bytes) : Prop :=
  ∀ b ∈ front, 128 ≤ b.toNat

/-- Octets end with an integer: there are none, or the last one is below 128. -/
def EndsWhole (bytes : Bytes) : Prop :=
  ∀ b ∈ bytes.getLast?, b.toNat < 128

/-- Three octets in a row are from 128 on. -/
def HasLongRun (bytes : Bytes) : Prop :=
  ∃ run, run <:+: bytes ∧ run.length = 3 ∧ Unfinished run

/-- The groups of octets that each hold one integer: a group ends with an octet below 128, or
where there are no more octets. -/
def numerals : Bytes → List Bytes
  | [] => []
  | b :: rest =>
      if b.toNat < 128 then
        [b] :: numerals rest
      else
        match numerals rest with
        | [] => [[b]]
        | first :: later => (b :: first) :: later

/-- The integer with seven more bits. -/
def addBits (value : Nat) (b : UInt8) : Nat :=
  value * 128 + b.toNat % 128

/-- The integer that a group of octets holds. -/
def valueOf (group : Bytes) : Nat :=
  group.foldl addBits 0

/-! ### Groups -/

/-- Octets are none at all, or they leave an integer unfinished, or they begin with a whole
group. -/
theorem groups_induction {P : Bytes → Prop} (nil : P [])
    (cut : ∀ front, front ≠ [] → Unfinished front → P front)
    (group : ∀ front last rest, Unfinished front → last.toNat < 128 → P rest →
      P (front ++ last :: rest)) (bytes : Bytes) : P bytes := by
  -- Unfinished octets are collected until an octet below 128 ends the group.
  have hall : ∀ front, Unfinished front → P (front ++ bytes) := by
    induction bytes with
    | nil =>
        intro front hfront
        rw [List.append_nil]
        by_cases hnil : front = []
        · rw [hnil]
          exact nil
        · exact cut front hnil hfront
    | cons b rest ih =>
        intro front hfront
        by_cases hb : b.toNat < 128
        · exact group front b rest hfront hb (ih [] (List.forall_mem_nil _))
        · have hlonger : Unfinished (front ++ [b]) := by
            intro c hc
            rcases List.mem_append.mp hc with hc | hc
            · exact hfront c hc
            · rw [List.mem_singleton.mp hc]
              exact Nat.le_of_not_lt hb
          rw [List.append_cons]
          exact ih (front ++ [b]) hlonger
  exact hall [] (List.forall_mem_nil _)

theorem numerals_append_cons (hfront : Unfinished front) (hlast : last.toNat < 128) :
    numerals (front ++ last :: rest) = (front ++ [last]) :: numerals rest := by
  induction front with
  | nil => rw [List.nil_append, numerals, if_pos hlast, List.nil_append]
  | cons b front ih =>
      obtain ⟨hb, hfront⟩ := List.forall_mem_cons.mp hfront
      rw [List.cons_append, numerals, if_neg (Nat.not_lt.mpr hb), ih hfront]
      rfl

theorem not_endsWhole (hne : front ≠ []) (hfront : Unfinished front) : ¬ EndsWhole front := by
  intro hends
  have hlast := List.getLast?_eq_some_getLast hne
  exact Nat.not_lt.mpr (hfront _ (List.getLast_mem hne)) (hends _ hlast)

theorem endsWhole_append_cons (hlast : last.toNat < 128) :
    EndsWhole (front ++ last :: rest) ↔ EndsWhole rest := by
  unfold EndsWhole
  cases rest with
  | nil => simpa using hlast
  | cons b rest => simp [List.getLast?_append, List.getLast?_cons_cons]

theorem unfinished_take (hfront : Unfinished front) (n : Nat) : Unfinished (front.take n) :=
  fun b hb => hfront b (List.mem_of_mem_take hb)

theorem hasLongRun_iff_of_unfinished (hfront : Unfinished front) :
    HasLongRun front ↔ 3 ≤ front.length := by
  constructor
  · rintro ⟨run, hrun, hlength, -⟩
    exact hlength ▸ hrun.length_le
  · intro hlength
    exact ⟨front.take 3, (List.take_prefix 3 front).isInfix, List.length_take_of_le hlength,
      unfinished_take hfront 3⟩

theorem not_hasLongRun_nil : ¬ HasLongRun [] := by
  rw [hasLongRun_iff_of_unfinished (List.forall_mem_nil _)]
  decide

theorem hasLongRun_append_cons (hfront : Unfinished front) (hlast : last.toNat < 128) :
    HasLongRun (front ++ last :: rest) ↔ 3 ≤ front.length ∨ HasLongRun rest := by
  rw [← hasLongRun_iff_of_unfinished hfront]
  constructor
  · rintro ⟨run, hrun, hlength, hhigh⟩
    have hapart : last ∉ run := fun h => Nat.not_lt.mpr (hhigh last h) hlast
    rcases infix_of_infix_append_cons hapart hrun with hhere | hbehind
    · exact Or.inl ⟨run, hhere, hlength, hhigh⟩
    · exact Or.inr ⟨run, hbehind, hlength, hhigh⟩
  · rintro (⟨run, hrun, hlength, hhigh⟩ | ⟨run, hrun, hlength, hhigh⟩)
    · exact ⟨run, hrun.trans (List.prefix_append front _).isInfix, hlength, hhigh⟩
    · have hsuffix : rest <:+ front ++ last :: rest := ⟨front ++ [last], by simp⟩
      exact ⟨run, hrun.trans hsuffix.isInfix, hlength, hhigh⟩

theorem hasLongRun_dropLast_append_cons (hfront : Unfinished front) (hlast : last.toNat < 128) :
    HasLongRun (front ++ last :: rest).dropLast ↔
      3 ≤ front.length ∨ HasLongRun rest.dropLast := by
  cases rest with
  | nil =>
      rw [List.dropLast_concat, List.dropLast_nil, hasLongRun_iff_of_unfinished hfront,
        or_iff_left not_hasLongRun_nil]
  | cons b rest =>
      rw [List.dropLast_append_of_ne_nil (List.cons_ne_nil _ _),
        List.dropLast_cons_of_ne_nil (List.cons_ne_nil _ _), hasLongRun_append_cons hfront hlast]

/-! ### Reading a group -/

/-- Up to three unfinished octets are taken in. -/
theorem unpackFrom_append (hfront : Unfinished front) (hcount : count + front.length ≤ 3) :
    unpackFrom value count (front ++ rest) =
      unpackFrom (front.foldl addBits value) (count + front.length) rest := by
  induction front generalizing value count with
  | nil => rfl
  | cons b front ih =>
      obtain ⟨hb, hfront⟩ := List.forall_mem_cons.mp hfront
      rw [List.length_cons] at hcount ⊢
      have hbits : value * 128 + (b.toNat - 128) = addBits value b := by
        have hoctet := b.toNat_lt
        rw [addBits]
        omega
      rw [List.cons_append, unpackFrom_more (by omega) hb, ih hfront (by omega), hbits,
        List.foldl_cons, Nat.add_right_comm, Nat.add_assoc]

theorem unpack_append_cons (hfront : Unfinished front) (hlast : last.toNat < 128)
    (hlength : front.length < 3) :
    unpack (front ++ last :: rest) = (unpack rest).map (valueOf (front ++ [last]) :: ·) := by
  have hbits : front.foldl addBits 0 * 128 + last.toNat = valueOf (front ++ [last]) := by
    rw [valueOf, List.foldl_append, List.foldl_cons, List.foldl_nil, addBits,
      Nat.mod_eq_of_lt hlast]
  rw [unpack, unpackFrom_append hfront (by omega), unpackFrom_last (by omega) hlast, hbits, unpack]

/-- Behind three unfinished octets there is no further one. -/
theorem unpack_of_long (hfront : Unfinished front) (hlength : 3 ≤ front.length) (hne : rest ≠ []) :
    unpack (front ++ rest) = .error .integerTooLong := by
  have htake : (front.take 3).length = 3 := List.length_take_of_le hlength
  obtain ⟨b, behind, hbehind⟩ := List.exists_cons_of_ne_nil
    (List.append_ne_nil_of_right_ne_nil (front.drop 3) hne)
  rw [← List.take_append_drop 3 front, List.append_assoc, hbehind, unpack,
    unpackFrom_append (unfinished_take hfront 3) (by omega), htake, unpackFrom,
    if_pos (Nat.le_refl 3)]

/-- Unfinished octets are refused at their end, or behind the third one. -/
theorem unpack_unfinished (hne : front ≠ []) (hfront : Unfinished front) :
    unpack front = if 3 < front.length then .error .integerTooLong else .error .integerCut := by
  split
  · rename_i hlong
    have hthree : 3 ≤ (front.take 3).length := by
      rw [List.length_take_of_le (Nat.le_of_lt hlong)]
    have hbehind : front.drop 3 ≠ [] := by
      rw [Ne, List.drop_eq_nil_iff]
      exact Nat.not_le.mpr hlong
    have hsplit := unpack_of_long (unfinished_take hfront 3) hthree hbehind
    rwa [List.take_append_drop] at hsplit
  · rename_i hshort
    have hread : unpackFrom 0 0 (front ++ []) =
        unpackFrom (front.foldl addBits 0) (0 + front.length) [] :=
      unpackFrom_append hfront (by omega)
    rw [List.append_nil] at hread
    rw [unpack, hread, unpackFrom, if_neg]
    have hpos := List.length_pos_iff.mpr hne
    omega

/-! ### Well-formed octets -/

/-- Octets are unpacked exactly when they end with an integer and none takes more than three of
them. -/
theorem exists_unpack_eq_ok_iff (bytes : Bytes) :
    (∃ ns, unpack bytes = .ok ns) ↔ EndsWhole bytes ∧ ¬ HasLongRun bytes := by
  induction bytes using groups_induction with
  | nil =>
      refine iff_of_true ⟨[], rfl⟩ ⟨?_, not_hasLongRun_nil⟩
      simp [EndsWhole]
  | cut front hne hfront =>
      refine iff_of_false ?_ fun h => not_endsWhole hne hfront h.1
      rw [unpack_unfinished hne hfront]
      split <;> simp
  | group front last rest hfront hlast ih =>
      rw [endsWhole_append_cons hlast, hasLongRun_append_cons hfront hlast, not_or, and_left_comm,
        ← ih]
      by_cases hlength : front.length < 3
      · rw [unpack_append_cons hfront hlast hlength]
        cases unpack rest <;> simp [hlength, Except.map]
      · rw [unpack_of_long hfront (by omega) (List.cons_ne_nil _ _)]
        exact iff_of_false (by simp) fun h => h.1 (by omega)

/-- An integer is too long when three octets from 128 on have another octet behind them; whatever
else is refused is cut. -/
theorem unpack_eq_integerTooLong_iff (bytes : Bytes) :
    unpack bytes = .error .integerTooLong ↔ HasLongRun bytes.dropLast := by
  induction bytes using groups_induction with
  | nil =>
      exact iff_of_false (by simp [unpack, unpackFrom]) not_hasLongRun_nil
  | cut front hne hfront =>
      have hbefore : Unfinished front.dropLast := fun b hb => hfront b (List.mem_of_mem_dropLast hb)
      rw [unpack_unfinished hne hfront, hasLongRun_iff_of_unfinished hbefore, List.length_dropLast]
      split
      · exact iff_of_true rfl (by omega)
      · exact iff_of_false (by simp) (by omega)
  | group front last rest hfront hlast ih =>
      rw [hasLongRun_dropLast_append_cons hfront hlast, ← ih]
      by_cases hlength : front.length < 3
      · rw [unpack_append_cons hfront hlast hlength]
        have hshort : ¬ 3 ≤ front.length := by omega
        cases unpack rest <;> simp [hshort, Except.map]
      · rw [unpack_of_long hfront (by omega) (List.cons_ne_nil _ _)]
        exact iff_of_true rfl (Or.inl (by omega))

theorem unpack_cases (bytes : Bytes) :
    (∃ ns, unpack bytes = .ok ns) ∨ unpack bytes = .error .integerTooLong ∨
      unpack bytes = .error .integerCut := by
  induction bytes using groups_induction with
  | nil => exact Or.inl ⟨[], rfl⟩
  | cut front hne hfront =>
      rw [unpack_unfinished hne hfront]
      split <;> simp
  | group front last rest hfront hlast ih =>
      by_cases hlength : front.length < 3
      · rw [unpack_append_cons hfront hlast hlength]
        rcases ih with ⟨ns, hrest⟩ | hrest | hrest
        · exact Or.inl ⟨_, by rw [hrest]; rfl⟩
        · exact Or.inr (Or.inl (by rw [hrest]; rfl))
        · exact Or.inr (Or.inr (by rw [hrest]; rfl))
      · exact Or.inr (Or.inl (unpack_of_long hfront (by omega) (List.cons_ne_nil _ _)))

/-! ### Packing again -/

/-- A first octet of seven zero bits adds nothing to an integer. -/
theorem valueOf_cons_zeroBits (g : Bytes) : valueOf (0x80 :: g) = valueOf g :=
  rfl

/-- A group that does not begin with seven zero bits is the packed form of its integer. -/
theorem octets_valueOf (hfront : Unfinished front) (hlast : last.toNat < 128)
    (hlength : front.length < 3) (hhead : front.head? ≠ some 0x80) :
    octets (valueOf (front ++ [last])) = front ++ [last] := by
  have hfirst : ∀ a ∈ front.head?, a.toNat ≠ 128 := by
    intro a ha hzero
    exact hhead (ha.trans (congrArg some (UInt8.toNat_inj.mp hzero)))
  -- A group has one octet, two or three, and the size of its value tells which.
  match front, hlength with
  | [], _ =>
      have hvalue : valueOf [last] = last.toNat := by
        simp only [valueOf, List.foldl_cons, List.foldl_nil, addBits]
        omega
      rw [List.nil_append, hvalue, octets, if_pos hlast, UInt8.ofNat_toNat]
  | [a], _ =>
      have ha := hfront a List.mem_cons_self
      have hoctet := a.toNat_lt
      have hne := hfirst a rfl
      have hvalue : valueOf [a, last] = (a.toNat - 128) * 128 + last.toNat := by
        simp only [valueOf, List.foldl_cons, List.foldl_nil, addBits]
        omega
      have hhigh : UInt8.ofNat (128 + ((a.toNat - 128) * 128 + last.toNat) / 128) = a :=
        ofNat_eq_of_toNat (by omega)
      have hlow : UInt8.ofNat (((a.toNat - 128) * 128 + last.toNat) % 128) = last :=
        ofNat_eq_of_toNat (by omega)
      rw [List.singleton_append, hvalue, octets, if_neg (by omega), if_pos (by omega), hhigh, hlow]
  | [a, b], _ =>
      obtain ⟨ha, hfront⟩ := List.forall_mem_cons.mp hfront
      have hb := hfront b List.mem_cons_self
      have hoctet := a.toNat_lt
      have hoctet' := b.toNat_lt
      have hne := hfirst a rfl
      have hvalue : valueOf [a, b, last] =
          ((a.toNat - 128) * 128 + (b.toNat - 128)) * 128 + last.toNat := by
        simp only [valueOf, List.foldl_cons, List.foldl_nil, addBits]
        omega
      generalize hn : ((a.toNat - 128) * 128 + (b.toNat - 128)) * 128 + last.toNat = n at hvalue
      have hhigh : UInt8.ofNat (128 + n / 16384) = a := ofNat_eq_of_toNat (by omega)
      have hmiddle : UInt8.ofNat (128 + n / 128 % 128) = b := ofNat_eq_of_toNat (by omega)
      have hlow : UInt8.ofNat (n % 128) = last := ofNat_eq_of_toNat (by omega)
      rw [List.cons_append, List.singleton_append, hvalue, octets, if_neg (by omega),
        if_neg (by omega), hhigh, hmiddle, hlow]

theorem length_octets_valueOf_le (hfront : Unfinished front) (hlast : last.toNat < 128)
    (hlength : front.length < 3) :
    (octets (valueOf (front ++ [last]))).length ≤ (front ++ [last]).length := by
  induction front with
  | nil => rw [octets_valueOf hfront hlast hlength (by simp)]
  | cons a front ih =>
      by_cases hzero : a = 0x80
      · have hrest := ih (List.forall_mem_cons.mp hfront).2 (Nat.lt_of_succ_lt hlength)
        rw [hzero, List.cons_append, valueOf_cons_zeroBits, List.length_cons]
        exact Nat.le_succ_of_le hrest
      · rw [octets_valueOf hfront hlast hlength (by simpa using hzero)]

/-- Without seven zero bits in front, and only then, a group is packed as it stands. -/
theorem octets_valueOf_eq_iff (hfront : Unfinished front) (hlast : last.toNat < 128)
    (hlength : front.length < 3) :
    octets (valueOf (front ++ [last])) = front ++ [last] ↔
      (front ++ [last]).head? ≠ some 0x80 := by
  cases front with
  | nil =>
      have hhead : last ≠ 0x80 := by
        rintro rfl
        exact absurd hlast (by decide)
      exact iff_of_true (octets_valueOf hfront hlast hlength (by simp)) (by simpa using hhead)
  | cons a front =>
      refine ⟨fun hsame hhead => ?_, octets_valueOf hfront hlast hlength⟩
      -- The same integer has a packed form that is no longer than the rest of the group.
      obtain rfl : a = 0x80 := Option.some.inj hhead
      have hrest := length_octets_valueOf_le (List.forall_mem_cons.mp hfront).2 hlast
        (Nat.lt_of_succ_lt hlength)
      rw [List.cons_append, valueOf_cons_zeroBits] at hsame
      rw [hsame, List.length_cons] at hrest
      exact Nat.not_succ_le_self _ hrest

theorem foldl_addBits_lt (group : Bytes) (value : Nat) :
    group.foldl addBits value < (value + 1) * 128 ^ group.length := by
  induction group generalizing value with
  | nil => simp
  | cons b group ih =>
      have hstep : addBits value b + 1 ≤ (value + 1) * 128 := by
        rw [addBits]
        omega
      calc (b :: group).foldl addBits value
          < (addBits value b + 1) * 128 ^ group.length := ih _
        _ ≤ (value + 1) * 128 * 128 ^ group.length := Nat.mul_le_mul_right _ hstep
        _ = (value + 1) * 128 ^ (b :: group).length := by rw [List.length_cons, pow_succ']; ring

theorem valueOf_lt (hlength : front.length < 3) : valueOf (front ++ [last]) < limit := by
  have hthree : (front ++ [last]).length ≤ 3 := by
    rw [List.length_append, List.length_singleton]
    exact hlength
  calc valueOf (front ++ [last])
      < (0 + 1) * 128 ^ (front ++ [last]).length := foldl_addBits_lt _ 0
    _ ≤ (0 + 1) * 128 ^ 3 :=
      Nat.mul_le_mul_left _ (Nat.pow_le_pow_right (by decide) hthree)
    _ = limit := rfl

/-- Two halves, none of which is longer than the other one in its place, make the same list only
when they are the same. -/
theorem append_eq_append_iff_of_length_le {part more whole later : Bytes}
    (hpart : part.length ≤ whole.length) (hmore : more.length ≤ later.length) :
    part ++ more = whole ++ later ↔ part = whole ∧ more = later := by
  constructor
  · intro heq
    have htotal := congrArg List.length heq
    rw [List.length_append, List.length_append] at htotal
    exact List.append_inj heq (by omega)
  · rintro ⟨rfl, rfl⟩
    rfl

/-- Integers that are read from octets are packed as octets that are no more, and as the same
ones when no group begins with seven zero bits. -/
theorem pack_of_unpack (h : unpack bytes = .ok ns) :
    ns = (numerals bytes).map valueOf ∧ (∀ n ∈ ns, n < limit) ∧
      ∃ packed, pack (ns.map Int.ofNat) = .ok packed ∧ packed.length ≤ bytes.length ∧
        (packed = bytes ↔ ∀ g ∈ numerals bytes, g.head? ≠ some 0x80) := by
  -- By induction on the groups: each is packed again as no more octets than it has.
  induction bytes using groups_induction generalizing ns with
  | nil =>
      obtain rfl : [] = ns := Except.ok.inj h
      exact ⟨rfl, by simp, [], rfl, Nat.le_refl 0, by simp [numerals]⟩
  | cut front hne hfront =>
      rw [unpack_unfinished hne hfront] at h
      split at h <;> contradiction
  | group front last rest hfront hlast ih =>
      have hlength : front.length < 3 := by
        by_contra hlong
        rw [unpack_of_long hfront (Nat.le_of_not_lt hlong) (List.cons_ne_nil _ _)] at h
        contradiction
      rw [unpack_append_cons hfront hlast hlength] at h
      cases hrest : unpack rest with
      | error e =>
          rw [hrest] at h
          contradiction
      | ok later =>
          obtain ⟨hlater, hsmall, packed, hpacked, hle, hiff⟩ := ih hrest
          rw [hrest] at h
          obtain rfl : valueOf (front ++ [last]) :: later = ns := Except.ok.inj h
          have hvalue : valueOf (front ++ [last]) < limit := valueOf_lt hlength
          have hgroup := length_octets_valueOf_le hfront hlast hlength
          have hsame := octets_valueOf_eq_iff hfront hlast hlength
          have hwhole : front ++ last :: rest = (front ++ [last]) ++ rest := List.append_cons ..
          rw [numerals_append_cons hfront hlast]
          refine ⟨by rw [List.map_cons, ← hlater], List.forall_mem_cons.mpr ⟨hvalue, hsmall⟩, _,
            pack_cons_eq_ok_iff.mpr ⟨hvalue, packed, hpacked, rfl⟩, ?_, ?_⟩
          · rw [hwhole, List.length_append, List.length_append]
            exact Nat.add_le_add hgroup hle
          · rw [hwhole, append_eq_append_iff_of_length_le hgroup hle, List.forall_mem_cons, hsame,
              hiff]

/-- Octets are unpacked exactly when there are none or the last one is below 128, and no three in
a row are from 128 on; otherwise an integer is too long or cut.  The integers are those of the
groups, all below the limit, and packed again they take no more octets.  They take the same ones
exactly when no group begins with seven zero bits. -/
theorem unpack_wellFormed (bytes : Bytes) :
    ((∃ ns, unpack bytes = .ok ns) ↔ EndsWhole bytes ∧ ¬ HasLongRun bytes) ∧
      (unpack bytes = .error .integerTooLong ↔ HasLongRun bytes.dropLast) ∧
      (∀ e, unpack bytes = .error e → e = .integerTooLong ∨ e = .integerCut) ∧
      ∀ ns, unpack bytes = .ok ns →
        ns = (numerals bytes).map valueOf ∧ (∀ n ∈ ns, n < 2 ^ 21) ∧
          ∃ packed, pack (ns.map Int.ofNat) = .ok packed ∧ packed.length ≤ bytes.length ∧
            (packed = bytes ↔ ∀ g ∈ numerals bytes, g.head? ≠ some 0x80) := by
  refine ⟨exists_unpack_eq_ok_iff bytes, unpack_eq_integerTooLong_iff bytes, ?_,
    fun ns h => pack_of_unpack h⟩
  intro e he
  rcases unpack_cases bytes with ⟨ns, hread⟩ | hread | hread
  · rw [hread] at he
    contradiction
  · rw [hread] at he
    exact Or.inl (Except.error.inj he).symm
  · rw [hread] at he
    exact Or.inr (Except.error.inj he).symm

/-- The integer 5 with an octet too many, the integer 300, and the greatest one. -/
def paddedIntegers : Bytes := [0x80, 0x05, 0x82, 0x2C, 0xFF, 0xFF, 0x7F]

theorem unpack_wellFormed_paddedIntegers :
    unpack paddedIntegers = .ok [5, 300, 2097151] ∧
      ∃ packed, pack [5, 300, 2097151] = .ok packed ∧ packed.length ≤ paddedIntegers.length ∧
        packed ≠ paddedIntegers := by
  have hread : unpack paddedIntegers = .ok [5, 300, 2097151] := rfl
  obtain ⟨-, -, packed, hpacked, hle, hiff⟩ :=
    (unpack_wellFormed paddedIntegers).2.2.2 [5, 300, 2097151] hread
  refine ⟨hread, packed, hpacked, hle, fun hsame => ?_⟩
  exact hiff.mp hsame [0x80, 0x05] (by decide) rfl

end Packing
end Lifeline.Share
