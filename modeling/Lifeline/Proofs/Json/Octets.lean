import Lifeline.Json.Encoding
import Lifeline.Proofs.Json.RoundTrip
import Lifeline.Proofs.Text.Utf8

/-!
# Objects in octets

The encoding of JSON in octets is guessed from the first ones.  What is written for an object
begins with a brace and a character that is not the null character, so its UTF-8 is taken for
UTF-8, and the object is read back from the octets.
-/

namespace Lifeline.Json

variable {layout : Layout} {c : CodePoint} {b : UInt8} {rest : Bytes}
  {fs : List (Text × Json)}

/-- A brace is no mark, and it is ASCII; two octets that are not zero tell that every octet
counts. -/
theorem detectEncoding_brace (hb : b ≠ 0) :
    detectEncoding (0x7B :: b :: rest) = (.utf8, 0x7B :: b :: rest) := by
  have hguess : guessEncoding (0x7B :: b :: rest) = .utf8 := by
    rcases rest with _ | ⟨c, _ | ⟨d, rest⟩⟩
    · simp [guessEncoding, hb]
    · rfl
    · simp [guessEncoding, hb]
  show (guessEncoding _, _) = _
  rw [hguess]

/-- Only the null character is written as an octet zero. -/
theorem exists_encodeChar_eq_cons (hc : c ≠ .char '\x00') :
    ∃ b tail, Utf8.encodeChar c = b :: tail ∧ b ≠ 0 := by
  have hpos : c.toNat ≠ 0 := fun h => hc (CodePoint.toNat_inj.mp h)
  have hbound := c.toNat_lt
  have hne : ∀ n, 0 < n → n < 256 → UInt8.ofNat n ≠ 0 := by
    intro n hn hsmall hzero
    have hvalue := toNat_octet hsmall
    rw [hzero] at hvalue
    exact Nat.ne_of_lt hn hvalue
  unfold Utf8.encodeChar
  simp only
  split
  · exact ⟨_, _, rfl, hne _ (by omega) (by omega)⟩
  split
  · exact ⟨_, _, rfl, hne _ (by omega) (by omega)⟩
  split
  · exact ⟨_, _, rfl, hne _ (by omega) (by omega)⟩
  · exact ⟨_, _, rfl, hne _ (by omega) (by omega)⟩

theorem parseBytes_encode_brace [Stack] (hc : c ≠ '\x00') (t : Text) :
    parseBytes (Utf8.encode (.char '{' :: c :: t)) = parse (.char '{' :: c :: t) := by
  obtain ⟨b, tail, hchar, hb⟩ := exists_encodeChar_eq_cons hc
  have hoctets : Utf8.encode (.char '{' :: c :: t) = 0x7B :: b :: (tail ++ Utf8.encode t) := by
    rw [Utf8.encode, List.flatMap_cons, List.flatMap_cons, hchar]
    rfl
  have hdecode : decodeText? (Utf8.encode (.char '{' :: c :: t)) = some (.char '{' :: c :: t) := by
    unfold decodeText?
    rw [hoctets, detectEncoding_brace hb, ← hoctets]
    exact Utf8.decodeSurrogates?_encode _
  rw [parseBytes, hdecode]

/-- Behind the brace of an object stands a line feed, a quote or the closing brace. -/
theorem exists_write_obj_eq_cons (layout : Layout) (fs : List (Text × Json)) :
    ∃ c t, write layout (.obj fs) = .char '{' :: c :: t ∧ c ≠ '\x00' := by
  cases fs with
  | nil => exact ⟨'}', [], rfl, by decide⟩
  | cons f fs =>
      obtain ⟨more, hmore⟩ := exists_writeFields_eq_cons layout 1 f fs
      unfold write
      rw [writeAt, hmore, Layout.newLine]
      split
      · exact ⟨'\n', _, rfl, by decide⟩
      · exact ⟨'"', _, rfl, by decide⟩

/-- An object is read back from the UTF-8 of what is written for it. -/
theorem parseBytes_encode_write [Stack] (hlayout : layout.Punctuated)
    (h : Readable Stack.room (.obj fs)) (hunsplit : AllTexts isUnsplit (.obj fs)) :
    parseBytes (Utf8.encode (write layout (.obj fs))) = .ok (.obj fs) := by
  obtain ⟨c, t, hcons, hc⟩ := exists_write_obj_eq_cons layout fs
  rw [hcons, parseBytes_encode_brace hc, ← hcons]
  exact parse_write hlayout h hunsplit

end Lifeline.Json
