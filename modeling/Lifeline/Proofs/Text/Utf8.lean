import Lifeline.Text.Utf8

/-!
# UTF-8 reads back

The octets of a character are read as one unit, whatever follows them, so all
readers read what `Utf8.encode` writes for a text of characters; the one that
lets encoded surrogates through reads what it writes for any text.  The strict
reader takes nothing else: what it reads is what was written.
-/

namespace Lifeline

/-- An octet holds any number below 256. -/
theorem toNat_octet {n : Nat} (hn : n < 256) : (UInt8.ofNat n).toNat = n :=
  UInt8.toNat_ofNat_of_lt hn

/-- An octet is the number that its bits make. -/
theorem ofNat_eq_of_toNat {n : Nat} {b : UInt8} (h : n = b.toNat) : UInt8.ofNat n = b := by
  rw [h, UInt8.ofNat_toNat]

namespace Utf8

variable {surrogates : Bool}

/-- An octet with six more bits is taken into a sequence. -/
theorem sequence_cons {count low high value used bits : Nat} {rest : Bytes} (hbits : bits < 64)
    (hlow : low ≤ 0x80 + bits) (hhigh : 0x80 + bits ≤ high) :
    sequence (count + 1) low high value used (UInt8.ofNat (0x80 + bits) :: rest) =
      sequence count 0x80 0xBF (value * 64 + bits) (used + 1) rest := by
  have hb : (UInt8.ofNat (0x80 + bits)).toNat = 0x80 + bits :=
    toNat_octet (by omega)
  rw [sequence, hb, if_pos ⟨hlow, hhigh⟩, Nat.add_sub_cancel_left]

/-- A character has a number outside the surrogates. -/
theorem bounds_of_isScalar {c : CodePoint} (hc : c.isScalar = true) :
    c.toNat < 0xD800 ∨ 0xDFFF < c.toNat := by
  cases c with
  | char c => exact (CodePoint.toNat_bounds c).imp id And.left
  | surrogate n => contradiction

section

variable {n : Nat}

theorem unit_two (hone : 0x80 ≤ n) (htwo : n < 0x800) (rest : Bytes) :
    unit surrogates (UInt8.ofNat (0xC0 + n / 64)) (UInt8.ofNat (0x80 + n % 64) :: rest) =
      (some (.ofNat n), 2) := by
  have hb : (UInt8.ofNat (0xC0 + n / 64)).toNat = 0xC0 + n / 64 := toNat_octet (by omega)
  have h1 : ¬ 0xC0 + n / 64 < 0x80 := by omega
  have h2 : ¬ 0xC0 + n / 64 < 0xC2 := by omega
  have h3 : 0xC0 + n / 64 < 0xE0 := by omega
  have hvalue : (0xC0 + n / 64 - 0xC0) * 64 + n % 64 = n := by omega
  simp only [unit, hb, h1, h2, h3, if_true, if_false]
  rw [sequence_cons (by omega) (by omega) (by omega), hvalue, sequence]

theorem unit_three (htwo : 0x800 ≤ n) (hthree : n < 0x10000)
    (hbounds : surrogates = true ∨ n < 0xD800 ∨ 0xDFFF < n) (rest : Bytes) :
    unit surrogates (UInt8.ofNat (0xE0 + n / 4096))
        (UInt8.ofNat (0x80 + n / 64 % 64) :: UInt8.ofNat (0x80 + n % 64) :: rest) =
      (some (.ofNat n), 3) := by
  have hb : (UInt8.ofNat (0xE0 + n / 4096)).toNat = 0xE0 + n / 4096 := toNat_octet (by omega)
  have h1 : ¬ 0xE0 + n / 4096 < 0x80 := by omega
  have h2 : ¬ 0xE0 + n / 4096 < 0xC2 := by omega
  have h3 : ¬ 0xE0 + n / 4096 < 0xE0 := by omega
  have h4 : 0xE0 + n / 4096 < 0xF0 := by omega
  -- The second octet is bounded from below for numbers that would fit in two octets, and from
  -- above for surrogates.
  have hlow : (if 0xE0 + n / 4096 = 0xE0 then 0xA0 else 0x80) ≤ 0x80 + n / 64 % 64 := by
    split <;> omega
  have hhigh : 0x80 + n / 64 % 64 ≤
      if 0xE0 + n / 4096 = 0xED ∧ surrogates = false then 0x9F else 0xBF := by
    split
    · rename_i hstrict
      have hcharacter := hbounds.resolve_left (by simp [hstrict.2])
      omega
    · omega
  have hvalue : ((0xE0 + n / 4096 - 0xE0) * 64 + n / 64 % 64) * 64 + n % 64 = n := by omega
  simp only [unit, hb, h1, h2, h3, h4, if_true, if_false]
  rw [sequence_cons (by omega) hlow hhigh, sequence_cons (by omega) (by omega) (by omega),
    hvalue, sequence]

theorem unit_four (hthree : 0x10000 ≤ n) (hlimit : n < 0x110000) (rest : Bytes) :
    unit surrogates (UInt8.ofNat (0xF0 + n / 262144))
        (UInt8.ofNat (0x80 + n / 4096 % 64) :: UInt8.ofNat (0x80 + n / 64 % 64) ::
          UInt8.ofNat (0x80 + n % 64) :: rest) =
      (some (.ofNat n), 4) := by
  have hb : (UInt8.ofNat (0xF0 + n / 262144)).toNat = 0xF0 + n / 262144 := toNat_octet (by omega)
  have h1 : ¬ 0xF0 + n / 262144 < 0x80 := by omega
  have h2 : ¬ 0xF0 + n / 262144 < 0xC2 := by omega
  have h3 : ¬ 0xF0 + n / 262144 < 0xE0 := by omega
  have h4 : ¬ 0xF0 + n / 262144 < 0xF0 := by omega
  have h5 : 0xF0 + n / 262144 < 0xF5 := by omega
  -- Here the bounds leave out numbers that would fit in three octets, and those too large.
  have hlow : (if 0xF0 + n / 262144 = 0xF0 then 0x90 else 0x80) ≤ 0x80 + n / 4096 % 64 := by
    split <;> omega
  have hhigh : 0x80 + n / 4096 % 64 ≤
      if 0xF0 + n / 262144 = 0xF4 then 0x8F else 0xBF := by
    split <;> omega
  have hvalue : (((0xF0 + n / 262144 - 0xF0) * 64 + n / 4096 % 64) * 64 + n / 64 % 64) * 64 +
      n % 64 = n := by omega
  simp only [unit, hb, h1, h2, h3, h4, h5, if_true, if_false]
  rw [sequence_cons (by omega) hlow hhigh, sequence_cons (by omega) (by omega) (by omega),
    sequence_cons (by omega) (by omega) (by omega), hvalue, sequence]

end

/-- The first octet of a code point tells how many octets it takes, and all of them together are
one unit: for a character always, for a surrogate where those are let through. -/
theorem unit_of_encodeChar {c : CodePoint} {b : UInt8} {tail : Bytes}
    (hc : surrogates = true ∨ c.isScalar = true) (h : encodeChar c = b :: tail) (rest : Bytes) :
    unit surrogates b (tail ++ rest) = (some c, tail.length + 1) := by
  have hbounds : surrogates = true ∨ c.toNat < 0xD800 ∨ 0xDFFF < c.toNat :=
    hc.imp id bounds_of_isScalar
  have hlimit := c.toNat_lt
  obtain ⟨n, hn⟩ : ∃ n, c.toNat = n := ⟨_, rfl⟩
  obtain rfl : CodePoint.ofNat n = c := hn ▸ c.ofNat_toNat
  simp only [encodeChar, hn] at h
  rw [hn] at hbounds hlimit
  -- The first octet is chosen by the size of the number, and so is the branch of the reader.
  split at h
  · rename_i hone
    obtain ⟨rfl, rfl⟩ := List.cons.inj h
    have hb : (UInt8.ofNat n).toNat = n := toNat_octet (by omega)
    simp only [unit, hb, hone, if_true]
    rfl
  split at h
  · rename_i hone htwo
    obtain ⟨rfl, rfl⟩ := List.cons.inj h
    exact unit_two (by omega) htwo rest
  split at h
  · rename_i hone htwo hthree
    obtain ⟨rfl, rfl⟩ := List.cons.inj h
    exact unit_three (by omega) hthree hbounds rest
  · rename_i hone htwo hthree
    obtain ⟨rfl, rfl⟩ := List.cons.inj h
    exact unit_four (by omega) hlimit rest

theorem encodeChar_ne_nil (c : CodePoint) : encodeChar c ≠ [] := by
  simp only [encodeChar]
  split
  · simp
  split
  · simp
  split
  · simp
  · simp

theorem unitsFrom_append_of_length {skip : Nat} {passed : Bytes} (hlength : passed.length = skip)
    (rest : Bytes) : unitsFrom surrogates skip (passed ++ rest) = unitsFrom surrogates 0 rest := by
  induction passed generalizing skip with
  | nil =>
      subst hlength
      rfl
  | cons b passed ih =>
      obtain rfl : passed.length + 1 = skip := hlength
      exact ih rfl

section

variable {t u : Text}

/-- Written text is read as its code points, whatever follows. -/
theorem unitsFrom_encode_append (ht : surrogates = true ∨ t.isScalar = true) (rest : Bytes) :
    unitsFrom surrogates 0 (encode t ++ rest) = t.map some ++ unitsFrom surrogates 0 rest := by
  induction t with
  | nil => rfl
  | cons c t ih =>
      rw [Text.isScalar_cons, Bool.and_eq_true] at ht
      specialize ih (ht.imp id And.right)
      obtain ⟨b, tail, hc⟩ := List.exists_cons_of_ne_nil (encodeChar_ne_nil c)
      have hencode : encode (c :: t) ++ rest = b :: (tail ++ (encode t ++ rest)) := by
        rw [encode, List.flatMap_cons, hc, ← List.append_assoc]
        rfl
      rw [hencode, unitsFrom, unit_of_encodeChar (ht.imp id And.left) hc]
      simp only [Nat.add_sub_cancel, unitsFrom_append_of_length rfl, ih, List.map_cons,
        List.cons_append]

theorem unitsFrom_encode (ht : surrogates = true ∨ t.isScalar = true) :
    unitsFrom surrogates 0 (encode t) = t.map some := by
  have hread : unitsFrom surrogates 0 (encode t ++ []) =
      t.map some ++ unitsFrom surrogates 0 [] := unitsFrom_encode_append ht []
  simpa [unitsFrom] using hread

/-- The octets of a text begin those of another one only where the text does. -/
theorem prefix_of_encode_prefix (h : encode u <+: encode t) : u <+: t := by
  obtain ⟨rest, hrest⟩ := h
  have hunits : u.map some ++ unitsFrom true 0 rest = t.map some := by
    rw [← unitsFrom_encode_append (Or.inl rfl), hrest, unitsFrom_encode (Or.inl rfl)]
  obtain ⟨v, hv, hmap⟩ := List.prefix_map_iff.mp ⟨_, hunits⟩
  obtain rfl : u = v := (List.map_inj_right fun _ _ => Option.some.inj).mp hmap
  exact hv

/-- A unit takes at least one octet. -/
theorem length_unitsFrom_le (skip : Nat) (bytes : Bytes) :
    (unitsFrom surrogates skip bytes).length ≤ bytes.length := by
  induction bytes generalizing skip with
  | nil => cases skip <;> exact Nat.le_refl 0
  | cons b bytes ih =>
      cases skip with
      | zero => exact Nat.succ_le_succ (ih ((unit surrogates b bytes).2 - 1))
      | succ skip => exact Nat.le_succ_of_le (ih skip)

theorem allSome_map_some (t : Text) : allSome (t.map some) = some t := by
  induction t with
  | nil => rfl
  | cons c t ih => rw [List.map_cons, allSome, ih, Option.map_some]

/-- The strict reader reads a written text of characters. -/
theorem decode?_encode (ht : t.isScalar = true) : decode? (encode t) = some t := by
  rw [decode?, unitsFrom_encode (Or.inr ht), allSome_map_some]

/-- The reader that lets encoded surrogates through reads any written text. -/
theorem decodeSurrogates?_encode (t : Text) : decodeSurrogates? (encode t) = some t := by
  rw [decodeSurrogates?, unitsFrom_encode (Or.inl rfl), allSome_map_some]

/-- Nothing is left out of a written text of characters. -/
theorem decodeDropping_encode (ht : t.isScalar = true) : decodeDropping (encode t) = t := by
  rw [decodeDropping, unitsFrom_encode (Or.inr ht), List.filterMap_map]
  exact List.filterMap_some

/-- The forgiving reader reads it as well. -/
theorem decodeReplacing_encode (ht : t.isScalar = true) : decodeReplacing (encode t) = t := by
  rw [decodeReplacing, unitsFrom_encode (Or.inr ht), List.map_map]
  exact List.map_id t

end

/-! ## Nothing else reads -/

section

variable {c : CodePoint} {b : UInt8} {count low high value used length n : Nat} {t : Text}
  {bytes rest : Bytes}

/-- A sequence that is complete begins with an octet between the bounds. -/
theorem exists_of_sequence_eq_some
    (h : sequence (count + 1) low high value used rest = (some c, length)) :
    ∃ b behind, rest = b :: behind ∧ low ≤ b.toNat ∧ b.toNat ≤ high ∧
      sequence count 0x80 0xBF (value * 64 + (b.toNat - 0x80)) (used + 1) behind =
        (some c, length) := by
  cases rest with
  | nil => simp [sequence] at h
  | cons b behind =>
      by_cases hb : low ≤ b.toNat ∧ b.toNat ≤ high
      · rw [sequence, if_pos hb] at h
        exact ⟨b, behind, rfl, hb.1, hb.2, h⟩
      · rw [sequence, if_neg hb] at h
        simp at h

theorem isScalar_ofNat (hn : n < 0xD800 ∨ 0xDFFF < n) (hlimit : n < 0x110000) :
    (CodePoint.ofNat n).isScalar = true := by
  have hvalid : n.isValidChar := hn.imp id fun h => ⟨h, hlimit⟩
  rw [CodePoint.ofNat, dif_pos hvalid]
  rfl

/-! For each length, the octets between the bounds are those of a character. -/

theorem encodeChar_one (hone : b.toNat < 0x80) :
    encodeChar (.ofNat b.toNat) = [b] ∧ (CodePoint.ofNat b.toNat).isScalar = true := by
  refine ⟨?_, isScalar_ofNat (by omega) (by omega)⟩
  rw [encodeChar, CodePoint.toNat_ofNat (by omega), if_pos hone, UInt8.ofNat_toNat]

theorem encodeChar_two {b₁ : UInt8} (hstart : ¬ b.toNat < 0xC2) (htwo : b.toNat < 0xE0)
    (hlow : 0x80 ≤ b₁.toNat) (hhigh : b₁.toNat ≤ 0xBF)
    (hn : (b.toNat - 0xC0) * 64 + (b₁.toNat - 0x80) = n) :
    encodeChar (.ofNat n) = [b, b₁] ∧ (CodePoint.ofNat n).isScalar = true := by
  have h1 : ¬ n < 0x80 := by omega
  have h2 : n < 0x800 := by omega
  have hfirst : UInt8.ofNat (0xC0 + n / 64) = b := ofNat_eq_of_toNat (by omega)
  have hsecond : UInt8.ofNat (0x80 + n % 64) = b₁ := ofNat_eq_of_toNat (by omega)
  refine ⟨?_, isScalar_ofNat (by omega) (by omega)⟩
  rw [encodeChar, CodePoint.toNat_ofNat (by omega)]
  simp only [h1, h2, if_false, if_true, hfirst, hsecond]

theorem encodeChar_three {b₁ b₂ : UInt8} (htwo : ¬ b.toNat < 0xE0) (hthree : b.toNat < 0xF0)
    (hlow₁ : (if b.toNat = 0xE0 then 0xA0 else 0x80) ≤ b₁.toNat)
    (hhigh₁ : b₁.toNat ≤ if b.toNat = 0xED then 0x9F else 0xBF)
    (hlow₂ : 0x80 ≤ b₂.toNat) (hhigh₂ : b₂.toNat ≤ 0xBF)
    (hn : ((b.toNat - 0xE0) * 64 + (b₁.toNat - 0x80)) * 64 + (b₂.toNat - 0x80) = n) :
    encodeChar (.ofNat n) = [b, b₁, b₂] ∧ (CodePoint.ofNat n).isScalar = true := by
  -- The bounds of the second octet keep the number at 0x800 or more and off the surrogates.
  have hstart : 0xA0 ≤ b₁.toNat ∨ b.toNat ≠ 0xE0 ∧ 0x80 ≤ b₁.toNat := by
    split at hlow₁ <;> omega
  have hend : b₁.toNat ≤ 0x9F ∨ b.toNat ≠ 0xED ∧ b₁.toNat ≤ 0xBF := by
    split at hhigh₁ <;> omega
  have h1 : ¬ n < 0x80 := by omega
  have h2 : ¬ n < 0x800 := by omega
  have h3 : n < 0x10000 := by omega
  have hfirst : UInt8.ofNat (0xE0 + n / 4096) = b := ofNat_eq_of_toNat (by omega)
  have hsecond : UInt8.ofNat (0x80 + n / 64 % 64) = b₁ := ofNat_eq_of_toNat (by omega)
  have hthird : UInt8.ofNat (0x80 + n % 64) = b₂ := ofNat_eq_of_toNat (by omega)
  refine ⟨?_, isScalar_ofNat (by omega) (by omega)⟩
  rw [encodeChar, CodePoint.toNat_ofNat (by omega)]
  simp only [h1, h2, h3, if_false, if_true, hfirst, hsecond, hthird]

theorem encodeChar_four {b₁ b₂ b₃ : UInt8} (hthree : ¬ b.toNat < 0xF0) (hfour : b.toNat < 0xF5)
    (hlow₁ : (if b.toNat = 0xF0 then 0x90 else 0x80) ≤ b₁.toNat)
    (hhigh₁ : b₁.toNat ≤ if b.toNat = 0xF4 then 0x8F else 0xBF)
    (hlow₂ : 0x80 ≤ b₂.toNat) (hhigh₂ : b₂.toNat ≤ 0xBF)
    (hlow₃ : 0x80 ≤ b₃.toNat) (hhigh₃ : b₃.toNat ≤ 0xBF)
    (hn : (((b.toNat - 0xF0) * 64 + (b₁.toNat - 0x80)) * 64 + (b₂.toNat - 0x80)) * 64 +
      (b₃.toNat - 0x80) = n) :
    encodeChar (.ofNat n) = [b, b₁, b₂, b₃] ∧ (CodePoint.ofNat n).isScalar = true := by
  -- Here they keep it at 0x10000 or more and below the last character.
  have hstart : 0x90 ≤ b₁.toNat ∨ b.toNat ≠ 0xF0 ∧ 0x80 ≤ b₁.toNat := by
    split at hlow₁ <;> omega
  have hend : b₁.toNat ≤ 0x8F ∨ b.toNat ≠ 0xF4 ∧ b₁.toNat ≤ 0xBF := by
    split at hhigh₁ <;> omega
  have h1 : ¬ n < 0x80 := by omega
  have h2 : ¬ n < 0x800 := by omega
  have h3 : ¬ n < 0x10000 := by omega
  have hfirst : UInt8.ofNat (0xF0 + n / 262144) = b := ofNat_eq_of_toNat (by omega)
  have hsecond : UInt8.ofNat (0x80 + n / 4096 % 64) = b₁ := ofNat_eq_of_toNat (by omega)
  have hthird : UInt8.ofNat (0x80 + n / 64 % 64) = b₂ := ofNat_eq_of_toNat (by omega)
  have hfourth : UInt8.ofNat (0x80 + n % 64) = b₃ := ofNat_eq_of_toNat (by omega)
  refine ⟨?_, isScalar_ofNat (by omega) (by omega)⟩
  rw [encodeChar, CodePoint.toNat_ofNat (by omega)]
  simp only [h1, h2, h3, if_false, hfirst, hsecond, hthird, hfourth]

/-- A character that the strict reader reads was written. -/
theorem exists_of_unit_eq_some (h : unit false b rest = (some c, length)) :
    ∃ tail behind, rest = tail ++ behind ∧ encodeChar c = b :: tail ∧
      length = tail.length + 1 ∧ c.isScalar = true := by
  simp only [unit, and_true] at h
  -- Each branch reads the octets that are written for a number of its size, and no shorter ones.
  split at h
  · rename_i hone
    obtain ⟨rfl, rfl⟩ : CodePoint.ofNat b.toNat = c ∧ 1 = length := by simpa using h
    obtain ⟨hwritten, hscalar⟩ := encodeChar_one hone
    exact ⟨[], rest, rfl, hwritten, rfl, hscalar⟩
  split at h
  · simp at h
  split at h
  · rename_i hone hstart htwo
    obtain ⟨b₁, behind, rfl, hlow₁, hhigh₁, h⟩ := exists_of_sequence_eq_some h
    obtain ⟨rfl, rfl⟩ : CodePoint.ofNat _ = c ∧ _ = length := by simpa [sequence] using h
    obtain ⟨hwritten, hscalar⟩ := encodeChar_two hstart htwo hlow₁ hhigh₁ rfl
    exact ⟨[b₁], behind, rfl, hwritten, rfl, hscalar⟩
  split at h
  · rename_i hone hstart htwo hthree
    obtain ⟨b₁, behind, rfl, hlow₁, hhigh₁, h⟩ := exists_of_sequence_eq_some h
    obtain ⟨b₂, behind, rfl, hlow₂, hhigh₂, h⟩ := exists_of_sequence_eq_some h
    obtain ⟨rfl, rfl⟩ : CodePoint.ofNat _ = c ∧ _ = length := by simpa [sequence] using h
    obtain ⟨hwritten, hscalar⟩ := encodeChar_three htwo hthree hlow₁ hhigh₁ hlow₂ hhigh₂ rfl
    exact ⟨[b₁, b₂], behind, rfl, hwritten, rfl, hscalar⟩
  split at h
  · rename_i hone hstart htwo hthree hfour
    obtain ⟨b₁, behind, rfl, hlow₁, hhigh₁, h⟩ := exists_of_sequence_eq_some h
    obtain ⟨b₂, behind, rfl, hlow₂, hhigh₂, h⟩ := exists_of_sequence_eq_some h
    obtain ⟨b₃, behind, rfl, hlow₃, hhigh₃, h⟩ := exists_of_sequence_eq_some h
    obtain ⟨rfl, rfl⟩ : CodePoint.ofNat _ = c ∧ _ = length := by simpa [sequence] using h
    obtain ⟨hwritten, hscalar⟩ :=
      encodeChar_four hthree hfour hlow₁ hhigh₁ hlow₂ hhigh₂ hlow₃ hhigh₃ rfl
    exact ⟨[b₁, b₂, b₃], behind, rfl, hwritten, rfl, hscalar⟩
  · simp at h

/-- The strict reader takes the octets of a text of characters, and reads that text. -/
theorem decode?_eq_some_iff : decode? bytes = some t ↔ bytes = encode t ∧ t.isScalar = true := by
  constructor
  · intro h
    unfold decode? at h
    -- By induction on the text: each unit that was read was written.
    induction t generalizing bytes with
    | nil =>
        cases bytes with
        | nil => exact ⟨rfl, rfl⟩
        | cons b rest =>
            rw [unitsFrom] at h
            cases hunit : (unit false b rest).1 with
            | none => simp [hunit, allSome] at h
            | some c => simp [hunit, allSome] at h
    | cons c t ih =>
        cases bytes with
        | nil => simp [unitsFrom, allSome] at h
        | cons b rest =>
            rw [unitsFrom] at h
            cases hunit : unit false b rest with
            | mk read length =>
                cases read with
                | none => simp [hunit, allSome] at h
                | some d =>
                    obtain ⟨tail, behind, rfl, hd, rfl, hscalar⟩ := exists_of_unit_eq_some hunit
                    simp only [hunit, allSome, Nat.add_sub_cancel, unitsFrom_append_of_length rfl,
                      Option.map_eq_some_iff, List.cons.injEq] at h
                    obtain ⟨u, hu, rfl, rfl⟩ := h
                    obtain ⟨rfl, hbehind⟩ := ih hu
                    rw [encode, encode, List.flatMap_cons, hd, Text.isScalar_cons, hscalar, hbehind]
                    exact ⟨rfl, rfl⟩
  · rintro ⟨rfl, ht⟩
    exact decode?_encode ht

end

end Utf8
end Lifeline
