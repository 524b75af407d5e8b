import Lifeline.Proofs.Share.TokenText
import Lifeline.Share.Reading

/-!
# Watching changes nothing

No phrase of the decoder's dictionary is empty, so the decoder that watches for empty phrases
meets none.  A token is read in the stages of the plain decoder: its text, and the session in
the text.
-/

namespace Lifeline.Share

namespace Lzw

variable {learned : Array Text} {w phrase : Text} {code : Int}

/-- No learned phrase is empty. -/
def Filled (learned : Array Text) : Prop :=
  ∀ phrase ∈ learned, phrase ≠ []

theorem filled_empty : Filled #[] := by
  unfold Filled
  simp

theorem Filled.push (h : Filled learned) (hphrase : phrase ≠ []) :
    Filled (learned.push phrase) := by
  intro p hp
  rcases Array.mem_push.mp hp with hp | rfl
  · exact h p hp
  · exact hphrase

theorem phrase?_ne_nil (hlearned : Filled learned) (h : phrase? learned code = some phrase) :
    phrase ≠ [] := by
  unfold phrase? at h
  by_cases hneg : code < 0
  · rw [if_pos hneg] at h
    contradiction
  · rw [if_neg hneg] at h
    by_cases hseed : code < seedSize
    · rw [if_pos hseed, Option.some.injEq] at h
      rw [← h]
      exact List.cons_ne_nil _ _
    · rw [if_neg hseed] at h
      exact hlearned phrase (Array.mem_of_getElem? h)

/-- Behind a phrase that is not empty the next one is found without a fault
that would not be caught, and it is not empty either. -/
theorem watchedPhrase_eq (hlearned : Filled learned) (hw : w ≠ []) (code : Int) :
    (∃ c t, nextPhrase? learned w code = some (c :: t) ∧
        watchedPhrase learned w code = .ok (c :: t)) ∨
      (nextPhrase? learned w code = none ∧
        watchedPhrase learned w code = .error (.token (.unknownCode code))) := by
  unfold nextPhrase? watchedPhrase
  cases hphrase : phrase? learned code with
  | some phrase =>
      obtain ⟨c, t, rfl⟩ := List.exists_cons_of_ne_nil (phrase?_ne_nil hlearned hphrase)
      exact Or.inl ⟨c, t, rfl, rfl⟩
  | none =>
      obtain ⟨c, t, rfl⟩ := List.exists_cons_of_ne_nil hw
      by_cases hcode : code = (seedSize + learned.size : Nat)
      · simp only [if_pos hcode]
        exact Or.inl ⟨c, t ++ [c], rfl, rfl⟩
      · rw [if_neg hcode, if_neg hcode]
        exact Or.inr ⟨rfl, rfl⟩

/-- Watching changes nothing, by induction on the codes: the phrases that are
learned end with a first character, so none of them is empty. -/
theorem watchedDecompressFrom_eq (hlearned : Filled learned) (hw : w ≠ []) (codes : List Int) :
    watchedDecompressFrom learned w codes =
      (decompressFrom learned w codes).mapError Fault.token := by
  induction codes generalizing learned w with
  | nil => rfl
  | cons code codes ih =>
      rcases watchedPhrase_eq hlearned hw code with ⟨c, t, hnext, hwatched⟩ | ⟨hnext, hwatched⟩
      · have hlearned' : Filled (learned.push (w ++ [c])) := hlearned.push (by simp)
        simp only [watchedDecompressFrom, decompressFrom, hnext, hwatched, List.take_succ_cons,
          List.take_zero, ih hlearned' (List.cons_ne_nil c t)]
        cases decompressFrom (learned.push (w ++ [c])) (c :: t) codes with
        | ok u => rfl
        | error e => rfl
      · simp only [watchedDecompressFrom, decompressFrom, hnext, hwatched]
        rfl

theorem watchedDecompress_eq (codes : List Int) :
    watchedDecompress codes = (decompress codes).mapError Fault.token := by
  cases codes with
  | nil => rfl
  | cons code codes =>
      cases hphrase : phrase? #[] code with
      | none =>
          simp only [watchedDecompress, decompress, hphrase]
          rfl
      | some phrase =>
          have hne := phrase?_ne_nil filled_empty hphrase
          simp only [watchedDecompress, decompress, hphrase,
            watchedDecompressFrom_eq filled_empty hne]
          cases decompressFrom #[] phrase codes with
          | ok t => rfl
          | error e => rfl

end Lzw

variable {token t : Text}

theorem watchedText_eq (token : Text) :
    watchedText token = (textOfToken token).mapError Fault.token := by
  by_cases hb : token.head? = some (.char 'b')
  · obtain ⟨rest, rfl⟩ := List.head?_eq_some_iff.mp hb
    rfl
  · rw [textOfToken_eq hb]
    unfold watchedText
    split
    · exact absurd rfl hb
    · cases numbersOfToken token with
      | ok ns => exact Lzw.watchedDecompress_eq _
      | error e => rfl

/-- A token that has no text ends the reading. -/
theorem readToken_of_error {e : DecodeError} [Json.Stack] (h : textOfToken token = .error e) :
    readToken token = .error (.token e) := by
  rw [readToken, watchedText_eq, h]
  rfl

/-- A token that has a text carries what the text carries. -/
theorem readToken_of_ok [Json.Stack] (h : textOfToken token = .ok t) :
    readToken token = sessionOfText t := by
  rw [readToken, watchedText_eq, h]
  rfl

end Lifeline.Share
