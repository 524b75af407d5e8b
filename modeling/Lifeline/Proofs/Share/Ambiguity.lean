import Lifeline.Proofs.Share.TokenText

/-!
# Texts whose tokens are misread

A compact token whose first digit is `b` is taken for a fallback token, and what
is read then is what stands behind this digit.  This never is the text itself.
The octets that are read are six bits ahead of those that were packed, so for
the text to come back its first octet would have to stand in both places; this
fixes the first four bits of the second octet as well, and no second code has
such an octet.

So a token is read back as its text for all texts of characters but the ambiguous ones;
a text with a surrogate has no token.
-/

namespace Lifeline.Share

variable {a b : UInt8} {later bytes part : Bytes} {codes ns : List Nat} {t token : Text}

/-- A text whose characters are at most U+00FF and whose codes are below 2 to the
power 21. -/
def HasCompactForm (t : Text) : Prop :=
  (∀ c ∈ t, c.toNat ≤ 0xFF) ∧ ∃ codes, Lzw.compress t = .ok codes ∧ ∀ k ∈ codes, k < Packing.limit

/-- A text whose compact token begins with the mark of a fallback token. -/
def Ambiguous (t : Text) : Prop :=
  HasCompactForm t ∧ ∃ c, t.head? = some c ∧ c ∈ [.char 'l', .char 'm', .char 'n', .char 'o']

/-! ## Compact tokens -/

/-- A text has a compact token when its codes exist and can be packed, and only
then. -/
theorem exists_packedToken_eq_ok_iff : (∃ token, packedToken t = .ok token) ↔ HasCompactForm t := by
  constructor
  · rintro ⟨token, htoken⟩
    obtain ⟨codes, bytes, hcodes, hbytes, -⟩ := exists_of_packedToken htoken
    refine ⟨?_, codes, hcodes, Packing.exists_pack_eq_ok_iff.mp ⟨bytes, hbytes⟩⟩
    exact fun c hc => Nat.le_of_lt_succ (Lzw.lt_seedSize_of_compress hcodes c hc)
  · rintro ⟨-, codes, hcodes, hsmall⟩
    obtain ⟨bytes, hbytes⟩ := Packing.exists_pack_eq_ok_iff.mpr hsmall
    refine ⟨Base64.encode bytes, ?_⟩
    simp only [packedToken, tokenOfNumbers, hcodes, hbytes]

theorem mem_misleading_iff {c : CodePoint} :
    c ∈ [.char 'l', .char 'm', .char 'n', .char 'o'] ↔ 108 ≤ c.toNat ∧ c.toNat ≤ 111 := by
  have hsame : ∀ d : CodePoint, c = d ↔ c.toNat = d.toNat := fun d => CodePoint.toNat_inj.symm
  simp only [List.mem_cons, List.not_mem_nil, or_false, hsame]
  show c.toNat = 108 ∨ c.toNat = 109 ∨ c.toNat = 110 ∨ c.toNat = 111 ↔ _
  omega

/-- The token of an ambiguous text begins with the mark of a fallback token. -/
theorem exists_token_eq_cons_b (h : Ambiguous t) :
    ∃ rest, packedToken t = .ok (.char 'b' :: rest) := by
  obtain ⟨hform, c, hhead, hc⟩ := h
  obtain ⟨u, rfl⟩ := List.head?_eq_some_iff.mp hhead
  obtain ⟨token, htoken⟩ := exists_packedToken_eq_ok_iff.mpr hform
  rw [mem_misleading_iff] at hc
  have hfirst : token.head? = some (.char 'b') := by
    rw [head?_packedToken htoken, (digit_eq_b_iff (by omega)).mpr hc]
  obtain ⟨rest, rfl⟩ := List.head?_eq_some_iff.mp hfirst
  exact ⟨rest, htoken⟩

/-! ## Octets six bits ahead -/

/-- Two octets are cut into the six bits of the first digit, the eight bits of
the second digit and the upper half of the next one, and so on. -/
theorem Base64.exists_sextets_cons_cons (a b : UInt8) (later : Bytes) :
    ∃ more, Base64.sextets (a :: b :: later) =
      a.toNat / 4 :: (a.toNat % 4 * 16 + b.toNat / 16) :: more := by
  cases later with
  | nil => exact ⟨_, rfl⟩
  | cons c later => exact ⟨_, rfl⟩

/-- The first octet of some digits has the value of the first digit in its
upper six bits. -/
theorem Base64.exists_of_octets_eq_cons (hns : ∀ n ∈ ns, n < 64)
    (h : Base64.octets ns = a :: later) : ∃ more, ns = a.toNat / 4 :: more := by
  have hfirst : ∀ m n : Nat, m < 64 → n < 64 → UInt8.ofNat (m * 4 + n / 16) = a →
      m = a.toNat / 4 := by
    rintro m n hm hn rfl
    rw [toNat_octet (by omega)]
    omega
  cases ns with
  | nil => contradiction
  | cons m ns =>
      cases ns with
      | nil => contradiction
      | cons n more =>
          have hm : m < 64 := hns m (by simp)
          have hn : n < 64 := hns n (by simp)
          have ha : UInt8.ofNat (m * 4 + n / 16) = a := by
            rcases more with _ | ⟨k, _ | ⟨l, more⟩⟩
            · exact (List.cons.inj h).1
            · exact (List.cons.inj h).1
            · exact (List.cons.inj h).1
          exact ⟨n :: more, by rw [← hfirst m n hm hn ha]⟩

/-- When the octets read behind the first digit begin as all the octets do, the
first four bits of the second octet repeat the last four of the second digit. -/
theorem Base64.exists_of_decode_tail {rest : Text} {digit₀ : CodePoint} (hlow : 108 ≤ a.toNat)
    (hhigh : a.toNat ≤ 111) (hencode : Base64.encode (a :: later) = digit₀ :: rest)
    (hdecode : Base64.decode rest = .ok (a :: part)) :
    ∃ b behind, later = b :: behind ∧ b.toNat / 16 = 11 := by
  rw [Base64.encode_eq_map_digit] at hencode
  cases hsextets : Base64.sextets (a :: later) with
  | nil => simp [hsextets] at hencode
  | cons n ns =>
      rw [hsextets, List.map_cons, List.cons.injEq] at hencode
      obtain ⟨-, rfl⟩ := hencode
      have hbits : ∀ m ∈ n :: ns, m < 64 := hsextets ▸ Base64.lt_of_mem_sextets
      rw [Base64.decode_map_digit fun m hm => hbits m (List.mem_cons_of_mem n hm)] at hdecode
      split at hdecode
      · simp at hdecode
      · rename_i hgroup
        obtain ⟨more, rfl⟩ := Base64.exists_of_octets_eq_cons
          (fun m hm => hbits m (List.mem_cons_of_mem n hm)) (Except.ok.inj hdecode)
        cases later with
        | nil =>
            -- One octet has two digits, and the second one alone is refused.
            simp only [Base64.sextets, List.cons.injEq] at hsextets
            obtain ⟨-, -, rfl⟩ := hsextets
            simp at hgroup
        | cons b behind =>
            obtain ⟨more', hmore⟩ := Base64.exists_sextets_cons_cons a b behind
            have hb := b.toNat_lt
            have hquarter : a.toNat / 4 = 27 := by omega
            simp only [hmore, List.cons.injEq, hquarter] at hsextets
            exact ⟨b, behind, rfl, by omega⟩

/-! ## Second codes -/

/-- The second code is at most 256, so its first octet is none of the higher
ones. -/
theorem toNat_second_octet_lt (hcodes : Lzw.compress t = .ok codes)
    (hbytes : Packing.pack (codes.map Int.ofNat) = .ok (a :: b :: later)) (ha : a.toNat < 128) :
    b.toNat < 131 := by
  cases codes with
  | nil => simp [Packing.pack] at hbytes
  | cons k ks =>
      obtain ⟨hk, behind, hbehind, hfirst⟩ := Packing.pack_cons_eq_ok_iff.mp hbytes
      -- The first octet is a whole code, so the second code begins with the second one.
      obtain rfl : b :: later = behind := by
        obtain ⟨front, last, hoctets, hfront, -⟩ := Packing.exists_octets_eq_append hk
        rw [hoctets] at hfirst
        cases front with
        | nil => exact (List.cons.inj hfirst).2
        | cons d front =>
            obtain rfl : a = d := (List.cons.inj hfirst).1
            have hd := hfront a List.mem_cons_self
            omega
      cases ks with
      | nil => simp [Packing.pack] at hbehind
      | cons k' ks =>
          have hk' : k' < Lzw.seedSize + 1 :=
            Lzw.getElem_lt_of_compress hcodes (i := 1) (by simp)
          simp only [Lzw.seedSize] at hk'
          obtain ⟨-, more, -, hsecond⟩ := Packing.pack_cons_eq_ok_iff.mp hbehind
          rw [Packing.octets] at hsecond
          by_cases hsmall : k' < 128
          · rw [if_pos hsmall] at hsecond
            rw [(List.cons.inj hsecond).1, toNat_octet (by omega)]
            omega
          · rw [if_neg hsmall, if_pos (by omega)] at hsecond
            rw [(List.cons.inj hsecond).1, toNat_octet (by omega)]
            omega

/-! ## Ambiguous texts -/

theorem Utf8.encode_cons_of_lt {c : CodePoint} (hc : c.toNat < 128) (u : Text) :
    Utf8.encode (c :: u) = UInt8.ofNat c.toNat :: Utf8.encode u := by
  rw [Utf8.encode, List.flatMap_cons, Utf8.encodeChar, if_pos hc]
  rfl

/-- An ambiguous text is not what its token is read as. -/
theorem textOfToken_ne_of_ambiguous (h : Ambiguous t) (htoken : tokenOfText? t = some token) :
    textOfToken token ≠ .ok t := by
  obtain ⟨rest, hpacked⟩ := exists_token_eq_cons_b h
  obtain ⟨codes, bytes, hcodes, hbytes, hencoded⟩ := exists_of_packedToken hpacked
  obtain rfl : .char 'b' :: rest = token := by
    simpa only [tokenOfText?, hpacked, Option.some.injEq] using htoken
  obtain ⟨-, c, hhead, hc⟩ := h
  obtain ⟨u, rfl⟩ := List.head?_eq_some_iff.mp hhead
  rw [mem_misleading_iff] at hc
  have ha : (UInt8.ofNat c.toNat).toNat = c.toNat := toNat_octet (by omega)
  intro hread
  -- What is read and what was packed begin with the octet of the first character.
  have hdecode : Base64.decode rest = .ok (UInt8.ofNat c.toNat :: Utf8.encode u) := by
    rw [← Utf8.encode_cons_of_lt (by omega)]
    exact (textOfToken_cons_b_eq_ok_iff.mp hread).1
  obtain ⟨later, rfl⟩ : ∃ later, bytes = UInt8.ofNat c.toNat :: later := by
    obtain ⟨ks, rfl, -, -, -⟩ := Lzw.exists_of_compress_cons hcodes
    obtain ⟨-, later, -, rfl⟩ := Packing.pack_cons_eq_ok_iff.mp hbytes
    exact ⟨later, by rw [Packing.octets, if_pos (by omega)]; rfl⟩
  obtain ⟨b, behind, rfl, hhalf⟩ :=
    Base64.exists_of_decode_tail (by omega) (by omega) hencoded.symm hdecode
  have hsecond : b.toNat < 131 := toNat_second_octet_lt hcodes hbytes (by omega)
  omega

theorem isScalar_of_isTokenOf (h : IsTokenOf token t) : t.isScalar = true := by
  rcases h with hpacked | hfallback
  · obtain ⟨hnarrow, -⟩ := exists_packedToken_eq_ok_iff.mp ⟨token, hpacked⟩
    exact Text.isScalar_iff.mpr fun c hc =>
      CodePoint.isScalar_of_toNat_lt (Nat.lt_of_le_of_lt (hnarrow c hc) (by decide))
  · exact (fallbackToken?_eq_some_iff.mp hfallback).1

theorem textOfToken_of_not_ambiguous (h : IsTokenOf token t) (hclear : ¬ Ambiguous t) :
    textOfToken token = .ok t := by
  rcases h with hpacked | hfallback
  · refine textOfToken_packedToken hpacked fun c hc hletter => hclear ?_
    exact ⟨exists_packedToken_eq_ok_iff.mp ⟨token, hpacked⟩, c, hc,
      mem_misleading_iff.mpr hletter⟩
  · exact textOfToken_of_fallbackToken? hfallback

/-- A text has a token when it is made of characters.  The token is read back as the text
unless the text is ambiguous, and then it is read as another text or not at all. -/
theorem textOfToken_tokenOfText_eq_ok_iff (t : Text) :
    ((∃ token, tokenOfText? t = some token) ↔ t.isScalar = true) ∧
      ((∃ token, tokenOfText? t = some token ∧ textOfToken token = .ok t) ↔
        t.isScalar = true ∧ ¬ Ambiguous t) := by
  refine ⟨⟨?_, exists_tokenOfText?_eq_some⟩, ?_, ?_⟩
  · rintro ⟨token, htoken⟩
    exact isScalar_of_isTokenOf (isTokenOf_of_tokenOfText? htoken)
  · rintro ⟨token, htoken, hread⟩
    refine ⟨isScalar_of_isTokenOf (isTokenOf_of_tokenOfText? htoken), fun hambiguous => ?_⟩
    exact textOfToken_ne_of_ambiguous hambiguous htoken hread
  · rintro ⟨hscalar, hclear⟩
    obtain ⟨token, htoken⟩ := exists_tokenOfText?_eq_some hscalar
    exact ⟨token, htoken, textOfToken_of_not_ambiguous (isTokenOf_of_tokenOfText? htoken) hclear⟩

end Lifeline.Share
