import Lifeline.Proofs.Json.Depth
import Lifeline.Proofs.Share.Session

/-!
# Faults of the token reader

Reading a token ends with a session or with a fault, and all faults but two are caught: they
count as a token without a session.  Of the two, no token asks for the first character of an
empty phrase.  But a token can carry a text that nests too deep, and its fault gets out
(`sessionOfToken_brackets`).

A session that was read has a known syntax and no tokens in its diagram, so
that sharing it again loses nothing, if its texts are made of characters.
-/

namespace Lifeline.Share

variable {s : Session} {token t : Text} {fields : List (Text × Json)}

/-! ## Faults -/

/-- All faults are caught but two. -/
theorem isCaughtBy_reader_iff {fault : Fault} :
    fault.exception.isCaughtBy caughtByReader = true ↔
      fault ≠ .emptyPhrase ∧ fault ≠ .json .tooDeep := by
  cases fault with
  | token e => simp [Fault.exception, DecodeError.exception]; decide
  | json e =>
      cases e with
      | malformed => simp [Fault.exception, Json.ReadError.exception]; decide
      | longInteger => simp [Fault.exception, Json.ReadError.exception]; decide
      | tooDeep => simp [Fault.exception, Json.ReadError.exception]; decide
  | payload e =>
      cases e with
      | notObject => simp [Fault.exception, PayloadError.exception]; decide
      | unknownMode mode => simp [Fault.exception, PayloadError.exception]; decide
      | fieldNotObject => simp [Fault.exception, PayloadError.exception]; decide
  | emptyPhrase => simp [Fault.exception]; decide

theorem sessionOfText_ne_emptyPhrase [Json.Stack] (t : Text) :
    sessionOfText t ≠ .error .emptyPhrase := by
  unfold sessionOfText
  split
  · nofun
  · rename_i v hparse
    cases sessionOfPayload v with
    | error e => nofun
    | ok s => nofun

/-- No token asks for the first character of an empty phrase. -/
theorem readToken_ne_emptyPhrase [Json.Stack] (token : Text) :
    readToken token ≠ .error .emptyPhrase := by
  cases htext : textOfToken token with
  | error e =>
      rw [readToken_of_error htext]
      nofun
  | ok t =>
      rw [readToken_of_ok htext]
      exact sessionOfText_ne_emptyPhrase t

theorem sessionOfText_eq_tooDeep_iff [Json.Stack] :
    sessionOfText t = .error (.json .tooDeep) ↔ Json.parse t = .error .tooDeep := by
  unfold sessionOfText
  cases hparse : Json.parse t with
  | error e => simp
  | ok v =>
      cases hpayload : sessionOfPayload v with
      | error e => simp [hpayload, Except.mapError]
      | ok s => simp [hpayload, Except.mapError]

/-- A token nests too deep when it carries a text that does. -/
theorem readToken_eq_tooDeep_iff [Json.Stack] :
    readToken token = .error (.json .tooDeep) ↔
      ∃ t, textOfToken token = .ok t ∧ Json.parse t = .error .tooDeep := by
  cases htext : textOfToken token with
  | error e => simp [readToken_of_error htext]
  | ok t => simp [readToken_of_ok htext, sessionOfText_eq_tooDeep_iff]

/-- An empty token carries no text that could nest. -/
theorem readToken_nil [Json.Stack] : readToken [] = .error (.json .malformed) := by
  have htext : textOfToken [] = .ok [] := rfl
  have hparse : Json.parse [] = .error .malformed := by
    rw [Json.parse, Json.skipSpace, List.dropWhile_nil, Json.value_nil]
  rw [readToken_of_ok htext, sessionOfText, hparse]

/-- What gets out of the reader is a nesting that is too deep. -/
theorem sessionOfToken_eq_error_iff [Json.Stack] {fault : Fault} :
    sessionOfToken token = .error fault ↔
      fault = .json .tooDeep ∧ ∃ t, textOfToken token = .ok t ∧ Json.parse t = .error .tooDeep := by
  rw [← readToken_eq_tooDeep_iff]
  cases hempty : token.isEmpty with
  | true =>
      rw [List.isEmpty_iff.mp hempty, readToken_nil]
      simp [sessionOfToken]
  | false =>
      rw [sessionOfToken, hempty, if_neg Bool.false_ne_true]
      cases hread : readToken token with
      | ok s => simp
      | error met =>
          -- A fault that is not caught is an empty phrase, which the reader never meets, or
          -- nesting.
          by_cases hcaught : met.exception.isCaughtBy caughtByReader = true
          · have hother := (isCaughtBy_reader_iff.mp hcaught).2
            simp [hcaught, hother]
          · have hphrase : met ≠ .emptyPhrase := by
              rintro rfl
              exact readToken_ne_emptyPhrase token hread
            obtain rfl : met = .json .tooDeep := by
              by_contra hother
              exact hcaught (isCaughtBy_reader_iff.mpr ⟨hphrase, hother⟩)
            simp [hcaught, eq_comm]

/-- What the reader gives was read. -/
theorem readToken_of_sessionOfToken [Json.Stack] (h : sessionOfToken token = .ok (some s)) :
    readToken token = .ok s := by
  unfold sessionOfToken at h
  split at h
  · exact absurd (Except.ok.inj h) (Option.some_ne_none s).symm
  split at h
  · rename_i read hread
    rw [hread, Option.some.inj (Except.ok.inj h)]
  split at h
  · exact absurd (Except.ok.inj h) (Option.some_ne_none s).symm
  · contradiction

/-! ## Sessions that were read -/

theorem isKnownMode_of_payloadMode {mode : Text} (h : payloadMode fields = .ok mode) :
    isKnownMode mode = true := by
  unfold payloadMode at h
  split at h
  · obtain rfl : mermaidMode = mode := Except.ok.inj h
    decide
  · rename_i given hgiven
    by_cases hknown : isKnownMode given = true
    · rw [if_pos hknown] at h
      rw [← Except.ok.inj h]
      exact hknown
    · rw [if_neg hknown] at h
      contradiction
  · contradiction

theorem hasToken_payloadCode (fields : List (Text × Json)) :
    Shortcut.hasToken (payloadCode fields) = false := by
  unfold payloadCode
  cases Json.givenField? fields "c".toText with
  | none => decide
  | some v => exact Shortcut.hasToken_restore v.display

/-- A session that a payload describes has a known syntax, and no tokens are
left in its diagram. -/
theorem of_sessionOfFields (h : sessionOfFields fields = .ok s) :
    isKnownMode s.syntaxMode = true ∧ Shortcut.hasToken s.code = false := by
  unfold sessionOfFields at h
  cases hmode : payloadMode fields with
  | error e =>
      rw [hmode] at h
      contradiction
  | ok mode =>
      simp only [hmode, bind, Except.bind] at h
      split at h
      · contradiction
      split at h
      · contradiction
      split at h
      · contradiction
      split at h
      · contradiction
      · rw [← Except.ok.inj h]
        exact ⟨isKnownMode_of_payloadMode hmode, hasToken_payloadCode fields⟩

theorem of_sessionOfText [Json.Stack] (h : sessionOfText t = .ok s) :
    isKnownMode s.syntaxMode = true ∧ Shortcut.hasToken s.code = false := by
  unfold sessionOfText at h
  split at h
  · contradiction
  · rename_i v hparse
    cases v with
    | obj fields =>
        cases hfields : sessionOfFields fields with
        | error e =>
            rw [sessionOfPayload, hfields] at h
            contradiction
        | ok read =>
            rw [sessionOfPayload, hfields] at h
            obtain rfl : read = s := Except.ok.inj h
            exact of_sessionOfFields hfields
    | _ => contradiction

theorem of_readToken [Json.Stack] (h : readToken token = .ok s) :
    isKnownMode s.syntaxMode = true ∧ Shortcut.hasToken s.code = false := by
  cases htext : textOfToken token with
  | error e =>
      rw [readToken_of_error htext] at h
      contradiction
  | ok t =>
      rw [readToken_of_ok htext] at h
      exact of_sessionOfText h

/-- Reading a token ends with a session, with none, or with the fault of nesting too deep,
which takes a text with more opening brackets than there is room for.  A session that was read
has a known syntax and no tokens in its diagram; if its texts are made of characters it has a
token of its own, and it comes back from it. -/
theorem sessionOfToken_reshare [Json.Stack] (token : Text) :
    (∀ fault, sessionOfToken token = .error fault ↔
        fault = .json .tooDeep ∧
          ∃ t, textOfToken token = .ok t ∧ Json.parse t = .error .tooDeep) ∧
      (∀ fault, sessionOfToken token = .error fault →
        ∃ t, textOfToken token = .ok t ∧ Json.Stack.room < Json.openings t) ∧
      ∀ s, sessionOfToken token = .ok (some s) →
        isKnownMode s.syntaxMode = true ∧ Shortcut.hasToken s.code = false ∧
          (s.IsScalar → ∃ own, tokenOfSession? false s = some own ∧
            sessionOfToken own = .ok (some s)) := by
  refine ⟨fun fault => sessionOfToken_eq_error_iff, ?_, ?_⟩
  · intro fault hfault
    obtain ⟨-, t, htext, hparse⟩ := sessionOfToken_eq_error_iff.mp hfault
    exact ⟨t, htext, Json.room_lt_openings_of_parse hparse⟩
  · intro s hs
    obtain ⟨hmode, hcode⟩ := of_readToken (readToken_of_sessionOfToken hs)
    refine ⟨hmode, hcode, fun hscalar => ?_⟩
    obtain ⟨own, hown⟩ := exists_tokenOfSession?_eq_some hscalar false
    have hback : sessionOfToken own =
        .ok (some { s with code := Shortcut.restore (sentCode false s.code) }) :=
      sessionOfToken_of_isTokenOf hmode hscalar (isTokenOf_of_tokenOfText? hown)
    have hsent : sentCode false s.code = s.code := rfl
    rw [hsent, Shortcut.restore_eq_self_iff.mpr hcode] at hback
    exact ⟨own, hown, hback⟩

/-- A token of brackets, more than there is room for, makes the reader raise. -/
theorem sessionOfToken_brackets :
    ∃ token, fallbackToken? (List.replicate 991 (.char '[')) = some token ∧
      @sessionOfToken .usual token = .error (.json .tooDeep) := by
  have htoken := fallbackToken?_eq_some_iff.mpr
    ⟨Text.isScalar_replicate_char 991 '[', rfl⟩
  have hparse : @Json.parse .usual (List.replicate 991 (.char '[') ++ []) = .error .tooDeep :=
    @Json.parse_replicate .usual []
  rw [List.append_nil] at hparse
  refine ⟨_, htoken, ?_⟩
  rw [@sessionOfToken_eq_error_iff _ .usual]
  exact ⟨rfl, _, textOfToken_of_fallbackToken? htoken, hparse⟩

end Lifeline.Share
