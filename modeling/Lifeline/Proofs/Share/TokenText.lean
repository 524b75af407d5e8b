import Lifeline.Proofs.Share.Dictionary
import Lifeline.Proofs.Share.Octets
import Lifeline.Share.Token

/-!
# The text of a token

Both kinds of tokens are read back as their texts.  A compact token that begins
with `b` would be taken for one of the other kind.  Its first digit stands for
the first six bits of the first code, which is the first character of the text;
so this happens for texts that begin with one of the letters from `l` to `o`
and for no others.
-/

namespace Lifeline.Share

variable {c : CodePoint} {t token : Text}

theorem Base64.head?_encode_cons (a : UInt8) (rest : Bytes) :
    (Base64.encode (a :: rest)).head? = some (Base64.digit (a.toNat / 4)) := by
  match rest with
  | [] => rfl
  | [b] => rfl
  | b :: c :: rest => rfl

/-- The octets and the codes behind a compact token. -/
theorem exists_of_packedToken (h : packedToken t = .ok token) :
    ∃ codes bytes, Lzw.compress t = .ok codes ∧
      Packing.pack (codes.map Int.ofNat) = .ok bytes ∧ token = Base64.encode bytes := by
  simp only [packedToken, tokenOfNumbers] at h
  split at h
  · rename_i codes hcodes
    split at h
    · rename_i bytes hbytes
      exact ⟨codes, bytes, hcodes, hbytes, (Except.ok.inj h).symm⟩
    · simp at h
  · simp at h

/-- The first digit of a compact token holds the first six bits of the first
character, or the highest bit and the first bits of the first of two octets. -/
theorem head?_packedToken (h : packedToken (c :: t) = .ok token) :
    token.head? = some (Base64.digit (if c.toNat < 128 then c.toNat / 4 else 32)) := by
  obtain ⟨codes, bytes, hcodes, hbytes, rfl⟩ := exists_of_packedToken h
  obtain ⟨later, rfl, hc, -, -⟩ := Lzw.exists_of_compress_cons hcodes
  obtain ⟨-, behind, -, rfl⟩ := Packing.pack_cons_eq_ok_iff.mp hbytes
  simp only [Lzw.seedSize] at hc
  rw [Packing.octets]
  split
  · rw [List.singleton_append, Base64.head?_encode_cons, toNat_octet (by omega)]
  · have hfour : (128 + c.toNat / 128) / 4 = 32 := by omega
    rw [if_pos (by omega), List.cons_append, Base64.head?_encode_cons, toNat_octet (by omega),
      hfour]

/-- The first digit is `b` for the letters from `l` to `o`. -/
theorem digit_eq_b_iff {n : Nat} (hn : n < 256) :
    Base64.digit (if n < 128 then n / 4 else 32) = 'b' ↔ 108 ≤ n ∧ n ≤ 111 := by
  have hdigits : ∀ m < 64, Base64.digit m = 'b' ↔ m = 27 := by decide +kernel
  rw [hdigits _ (by split <;> omega)]
  split <;> omega

/-- A token that does not begin with `b` is read as a compact one. -/
theorem textOfToken_eq (hb : token.head? ≠ some (.char 'b')) :
    textOfToken token =
      match numbersOfToken token with
      | .error e => .error e
      | .ok ns => Lzw.decompress (ns.map Int.ofNat) := by
  unfold textOfToken
  split
  · exact absurd rfl hb
  · rfl

theorem numbersOfToken_encode {bytes : Bytes} {ns : List Nat}
    (h : Packing.pack (ns.map Int.ofNat) = .ok bytes) :
    numbersOfToken (Base64.encode bytes) = .ok ns := by
  rw [numbersOfToken, Base64.decode_encode]
  exact Packing.unpack_of_pack h

/-- Behind the mark of a fallback token stand the octets of its text, and nothing
else is read. -/
theorem textOfToken_cons_b_eq_ok_iff {rest : Text} :
    textOfToken (.char 'b' :: rest) = .ok t ↔
      Base64.decode rest = .ok (Utf8.encode t) ∧ t.isScalar = true := by
  rw [textOfToken]
  cases Base64.decode rest with
  | error e => simp
  | ok bytes =>
      simp only [Except.ok.injEq, ← Utf8.decode?_eq_some_iff]
      cases Utf8.decode? bytes with
      | none => simp
      | some u => simp

theorem fallbackToken?_eq_some_iff : fallbackToken? t = some token ↔
    t.isScalar = true ∧ token = .char 'b' :: Base64.encode (Utf8.encode t) := by
  unfold fallbackToken? Utf8.encode?
  split
  · rename_i ht
    simp [ht, eq_comm]
  · rename_i ht
    simp [ht]

/-- The fallback token of a text is read as the text. -/
theorem textOfToken_of_fallbackToken? (h : fallbackToken? t = some token) :
    textOfToken token = .ok t := by
  obtain ⟨ht, rfl⟩ := fallbackToken?_eq_some_iff.mp h
  exact textOfToken_cons_b_eq_ok_iff.mpr ⟨Base64.decode_encode _, ht⟩

/-- The compact token of a text is read as the text, unless its first character
makes it look like a fallback token. -/
theorem textOfToken_packedToken (h : packedToken t = .ok token)
    (hfirst : ∀ c, t.head? = some c → ¬ (108 ≤ c.toNat ∧ c.toNat ≤ 111)) :
    textOfToken token = .ok t := by
  obtain ⟨codes, bytes, hcodes, hbytes, htoken⟩ := exists_of_packedToken h
  have hb : token.head? ≠ some (.char 'b') := by
    cases t with
    | nil =>
        obtain rfl : [] = codes := Except.ok.inj hcodes
        obtain rfl : [] = bytes := Except.ok.inj hbytes
        simp [htoken, Base64.encode]
    | cons c t =>
        obtain ⟨-, -, hc, -, -⟩ := Lzw.exists_of_compress_cons hcodes
        rw [head?_packedToken h]
        intro hhead
        exact hfirst c rfl ((digit_eq_b_iff hc).mp (Option.some.inj hhead))
  rw [textOfToken_eq hb, htoken, numbersOfToken_encode hbytes]
  exact Lzw.decompress_of_compress hcodes

/-! ## The token of a text -/

/-- A token of a text: the compact one, if there is one, or the fallback. -/
def IsTokenOf (token t : Text) : Prop :=
  packedToken t = .ok token ∨ fallbackToken? t = some token

theorem isTokenOf_of_tokenOfText? (h : tokenOfText? t = some token) :
    IsTokenOf token t := by
  unfold tokenOfText? at h
  split at h
  · rename_i packed hpacked
    rw [← Option.some.inj h]
    exact Or.inl hpacked
  · exact Or.inr h

/-- A text of characters has a token. -/
theorem exists_tokenOfText?_eq_some (ht : t.isScalar = true) :
    ∃ token, tokenOfText? t = some token := by
  unfold tokenOfText?
  split
  · exact ⟨_, rfl⟩
  · exact ⟨_, fallbackToken?_eq_some_iff.mpr ⟨ht, rfl⟩⟩

end Lifeline.Share
