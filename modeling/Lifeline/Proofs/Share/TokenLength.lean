import Lifeline.Proofs.Share.TokenText
import Mathlib.Data.List.Forall2

/-!
# Compact tokens are short

The codes of a text cut it into phrases (`exists_phrases_of_compress`).  A code of the seed
stands for one character and takes as many octets as the character takes in UTF-8; a learned
code stands for two characters or more.  So a code takes no more octets than its phrase as long
as it is packed in two, which is the case for every code of a text of at most 16128 characters:
the code at a place is below 256 plus the place.  Base 64 keeps the order of the lengths, and
the fallback token has its mark on top (`length_tokenOfText_lt`).
-/

namespace Lifeline.Share

/-! ## Phrases -/

namespace Lzw

variable {learned : Codebook} {next k : Nat} {w t rest : Text} {codes : List Nat}
  {phrases : List Text}

/-- What a code can stand for: a code of the seed for its character, any other one for a phrase
that was learned from a shorter one. -/
inductive StandsFor : Nat → Text → Prop
  | seed {c : CodePoint} (hc : c.toNat < seedSize) : StandsFor c.toNat [c]
  | learned {k : Nat} {phrase : Text} (hphrase : 2 ≤ phrase.length) : StandsFor k phrase

theorem standsFor_of_codeOf? (h : codeOf? learned w = some k) : StandsFor k w := by
  match w with
  | [] => contradiction
  | [c] =>
      rw [codeOf?] at h
      split at h
      · rename_i hc
        rw [← Option.some.inj h]
        exact .seed hc
      · contradiction
  | a :: b :: w => exact .learned (by simp)

theorem StandsFor.length_pos (h : StandsFor k w) : 0 < w.length := by
  cases h with
  | seed hc => exact Nat.succ_pos 0
  | learned hphrase => exact Nat.lt_of_lt_of_le (Nat.succ_pos 1) hphrase

/-- Each code that is written stands for a phrase at the front of what is still to be coded, by
induction on the characters behind the current phrase. -/
theorem exists_phrases_of_compressFrom (h : compressFrom learned next w rest = .ok codes) :
    ∃ phrases, phrases.flatten = w ++ rest ∧ List.Forall₂ StandsFor codes phrases := by
  induction rest generalizing learned next w codes with
  | nil =>
      rw [compressFrom] at h
      split at h
      · rename_i hempty
        rw [← Except.ok.inj h, List.isEmpty_iff.mp hempty]
        exact ⟨[], rfl, .nil⟩
      · cases hk : codeOf? learned w with
        | none => simp [hk] at h
        | some k =>
            simp only [hk, Except.ok.injEq] at h
            rw [← h]
            exact ⟨[w], by simp, .cons (standsFor_of_codeOf? hk) .nil⟩
  | cons c rest ih =>
      simp only [compressFrom] at h
      split at h
      -- The phrase is made longer as long as it is in the book; then its code is written.
      · obtain ⟨phrases, hflatten, hstand⟩ := ih h
        exact ⟨phrases, by rw [hflatten, List.append_assoc, List.singleton_append], hstand⟩
      · cases hk : codeOf? learned w with
        | none => simp [hk] at h
        | some k =>
            simp only [hk] at h
            split at h
            · rename_i later hlater
              obtain ⟨phrases, hflatten, hstand⟩ := ih hlater
              rw [← Except.ok.inj h]
              refine ⟨w :: phrases, ?_, .cons (standsFor_of_codeOf? hk) hstand⟩
              rw [List.flatten_cons, hflatten, List.singleton_append]
            · contradiction

/-- The codes of a text cut it into phrases. -/
theorem exists_phrases_of_compress (h : compress t = .ok codes) :
    ∃ phrases, phrases.flatten = t ∧ List.Forall₂ StandsFor codes phrases :=
  exists_phrases_of_compressFrom h

theorem length_le_of_standsFor (h : List.Forall₂ StandsFor codes phrases) :
    codes.length ≤ phrases.flatten.length := by
  induction h with
  | nil => exact Nat.le_refl 0
  | cons hfirst hrest ih =>
      have hpos := hfirst.length_pos
      rw [List.length_cons, List.flatten_cons, List.length_append]
      omega

/-- The codes of a text are below 256 plus the length of the text. -/
theorem lt_of_mem_compress (h : compress t = .ok codes) :
    ∀ k ∈ codes, k < seedSize + t.length := by
  intro k hk
  obtain ⟨phrases, rfl, hstand⟩ := exists_phrases_of_compress h
  obtain ⟨i, hi, rfl⟩ := List.mem_iff_getElem.mp hk
  have hplace := getElem_lt_of_compress h hi
  have hlength := length_le_of_standsFor hstand
  omega

end Lzw

/-! ## Octets -/

theorem Utf8.encode_append (t u : Text) : Utf8.encode (t ++ u) = Utf8.encode t ++ Utf8.encode u :=
  List.flatMap_append

/-- Every character takes an octet or more. -/
theorem Utf8.length_le_length_encode (t : Text) : t.length ≤ (Utf8.encode t).length := by
  induction t with
  | nil => exact Nat.le_refl 0
  | cons c t ih =>
      have hpos := List.length_pos_iff.mpr (Utf8.encodeChar_ne_nil c)
      rw [Utf8.encode, List.flatMap_cons, List.length_append, List.length_cons]
      rw [Utf8.encode] at ih
      omega

namespace Packing

open Lzw (StandsFor)

variable {k : Nat} {phrase : Text} {codes : List Nat} {phrases : List Text}

/-- A code that is packed in two octets takes no more of them than its phrase. -/
theorem length_octets_le_of_standsFor (h : StandsFor k phrase) (hk : k < 16384) :
    (octets k).length ≤ (Utf8.encode phrase).length := by
  cases h with
  | seed hc =>
      rename_i c
      have hchar : Utf8.encode [c] = Utf8.encodeChar c := List.flatMap_singleton _ _
      rw [Lzw.seedSize] at hc
      rw [hchar, octets, Utf8.encodeChar]
      by_cases hsmall : c.toNat < 128
      · simp only [if_pos hsmall]
        exact Nat.le_refl 1
      · rw [if_neg hsmall, if_pos hk, if_neg hsmall, if_pos (by omega)]
        exact Nat.le_refl 2
  | learned hphrase =>
      -- A learned phrase has two characters at least.
      have htwo : (octets k).length ≤ 2 := by
        rw [octets]
        by_cases hsmall : k < 128
        · rw [if_pos hsmall]
          exact Nat.le_succ 1
        · rw [if_neg hsmall, if_pos hk]
          exact Nat.le_refl 2
      exact htwo.trans (hphrase.trans (Utf8.length_le_length_encode phrase))

/-- Codes that are packed in two octets each take no more octets than the text of their
phrases. -/
theorem exists_pack_length_le (h : List.Forall₂ StandsFor codes phrases)
    (hcodes : ∀ k ∈ codes, k < 16384) :
    ∃ bytes, pack (codes.map Int.ofNat) = .ok bytes ∧
      bytes.length ≤ (Utf8.encode phrases.flatten).length := by
  induction h with
  | nil => exact ⟨[], rfl, Nat.le_refl 0⟩
  | cons hfirst hrest ih =>
      obtain ⟨hk, hcodes⟩ := List.forall_mem_cons.mp hcodes
      obtain ⟨later, hlater, hlength⟩ := ih hcodes
      have hlimit : 16384 ≤ limit := by decide
      refine ⟨_, pack_cons_eq_ok_iff.mpr ⟨Nat.lt_of_lt_of_le hk hlimit, later, hlater, rfl⟩, ?_⟩
      rw [List.flatten_cons, Utf8.encode_append, List.length_append, List.length_append]
      exact Nat.add_le_add (length_octets_le_of_standsFor hfirst hk) hlength

end Packing

/-! ## Tokens -/

/-- Base 64 has four digits for three octets; what is left over takes one digit more than it has
octets. -/
theorem Base64.length_encode (bytes : Bytes) :
    (Base64.encode bytes).length = (4 * bytes.length + 2) / 3 := by
  rw [encode_eq_map_digit, List.length_map]
  induction bytes using sextets.induct with
  | case1 => rfl
  | case2 a => simp [sextets]
  | case3 a b => simp [sextets]
  | case4 a b c rest ih =>
      simp only [sextets, List.length_cons, ih]
      omega

/-- A text of at most 16128 characters up to U+00FF has a compact token.  Its octets are no more
than the UTF-8 octets of the text, and so it is shorter than the fallback token. -/
theorem length_tokenOfText_lt {t : Text} (hlength : t.length ≤ 16128)
    (hnarrow : ∀ c ∈ t, c.toNat ≤ 0xFF) :
    ∃ codes bytes, Lzw.compress t = .ok codes ∧
      Packing.pack (codes.map Int.ofNat) = .ok bytes ∧
      bytes.length ≤ (Utf8.encode t).length ∧
      ∃ token fallback, tokenOfText? t = some token ∧ fallbackToken? t = some fallback ∧
        token = Base64.encode bytes ∧ token.length < fallback.length := by
  have hseed : ∀ c ∈ t, c.toNat < Lzw.seedSize := fun c hc => Nat.lt_succ_of_le (hnarrow c hc)
  obtain ⟨codes, hcodes, -⟩ := Lzw.exists_compress_eq_ok hseed
  -- Each code stands for a seed or for a place in the text, so 16128 places keep it in 14 bits.
  have hsmall : ∀ k ∈ codes, k < 16384 := by
    intro k hk
    have hplace := Lzw.lt_of_mem_compress hcodes k hk
    rw [Lzw.seedSize] at hplace
    omega
  obtain ⟨phrases, hflatten, hstand⟩ := Lzw.exists_phrases_of_compress hcodes
  obtain ⟨bytes, hbytes, hshort⟩ := Packing.exists_pack_length_le hstand hsmall
  rw [hflatten] at hshort
  have htoken : tokenOfText? t = some (Base64.encode bytes) := by
    simp only [tokenOfText?, packedToken, hcodes, tokenOfNumbers, hbytes]
  have hscalar : t.isScalar = true := Text.isScalar_iff.mpr fun c hc =>
    CodePoint.isScalar_of_toNat_lt (Nat.lt_of_le_of_lt (hnarrow c hc) (by decide))
  refine ⟨codes, bytes, hcodes, hbytes, hshort, _, _, htoken,
    fallbackToken?_eq_some_iff.mpr ⟨hscalar, rfl⟩, rfl, ?_⟩
  rw [List.length_cons, Base64.length_encode, Base64.length_encode]
  omega

/-- A text with a character of two octets, and with a code for one of its phrases. -/
theorem length_tokenOfText_lt_accented :
    "éaéaéa".toText.length ≤ 16128 ∧ (∀ c ∈ "éaéaéa".toText, c.toNat ≤ 0xFF) ∧
      ∃ token fallback, tokenOfText? "éaéaéa".toText = some token ∧
        fallbackToken? "éaéaéa".toText = some fallback ∧ token.length < fallback.length := by
  have hlength : "éaéaéa".toText.length ≤ 16128 := by decide
  have hnarrow : ∀ c ∈ "éaéaéa".toText, c.toNat ≤ 0xFF := by decide
  obtain ⟨-, -, -, -, -, token, fallback, htoken, hfallback, -, hshorter⟩ :=
    length_tokenOfText_lt hlength hnarrow
  exact ⟨hlength, hnarrow, token, fallback, htoken, hfallback, hshorter⟩

end Lifeline.Share
