import Lifeline.Proofs.Json.Characters
import Lifeline.Proofs.Session
import Lifeline.Proofs.Share.Expansion
import Lifeline.Proofs.Share.Reading
import Lifeline.Proofs.Text.Lines

/-!
# Sessions through tokens

A session whose texts are made of characters has a token, and it comes back from
its tokens as it was, up to tokens that its diagram holds literally: these come back
as the words they stand for.  The payload of a session is a readable JSON value,
every field of it is read back by itself, and its text begins with a brace, so that
a compact token is never taken for one of the other kind.
-/

namespace Lifeline.Share

variable {compact : Bool} {s : Session} {key : Text} {v : Json}
  {fields entries : List (Text × Json)}

/-! ## The fields of a payload -/

/-- The fields of the payload of a session. -/
def payloadFields (compact : Bool) (s : Session) : List (Text × Json) :=
  [("c".toText, .str (Shortcut.substitute (sentCode compact s.code)))] ++
    modeFields s.syntaxMode ++
    (if s.theme.isDefault then [] else [("t".toText, s.theme.overridesJson)]) ++
    (if s.tooltips.isEmpty then [] else [("tt".toText, Json.ofTexts s.tooltips)]) ++
    (if s.participants.isEmpty then []
      else [("p".toText, .obj (s.participants.mapValues Annotation.toJson).entries)])

theorem payload_eq (compact : Bool) (s : Session) :
    payload compact s = .obj (payloadFields compact s) := rfl

/-- An optional field is found under its own key. -/
theorem lookupEntry_optional {absent : Prop} [Decidable absent] {k : Text} :
    lookupEntry key (if absent then [] else [(k, v)]) =
      if k = key then if absent then none else some v else none := by
  by_cases habsent : absent
  · simp [habsent, lookupEntry]
  · by_cases hk : k = key
    · simp [habsent, lookupEntry, hk]
    · simp [habsent, lookupEntry, hk]

theorem lookupEntry_code : lookupEntry "c".toText (payloadFields compact s) =
    some (.str (Shortcut.substitute (sentCode compact s.code))) := rfl

theorem lookupEntry_mode : lookupEntry "s".toText (payloadFields compact s) =
    if s.syntaxMode = mermaidMode then none else some (.str s.syntaxMode) := by
  simp [payloadFields, modeFields, lookupEntry_append, lookupEntry_optional, lookupEntry]

theorem lookupEntry_theme : lookupEntry "t".toText (payloadFields compact s) =
    if s.theme.isDefault then none else some s.theme.overridesJson := by
  simp [payloadFields, modeFields, lookupEntry_append, lookupEntry_optional, lookupEntry]

theorem lookupEntry_tooltips : lookupEntry "tt".toText (payloadFields compact s) =
    if s.tooltips.isEmpty then none else some (Json.ofTexts s.tooltips) := by
  simp [payloadFields, modeFields, lookupEntry_append, lookupEntry_optional, lookupEntry]

theorem lookupEntry_participants : lookupEntry "p".toText (payloadFields compact s) =
    if s.participants.isEmpty then none
    else some (.obj (s.participants.mapValues Annotation.toJson).entries) := by
  simp [payloadFields, modeFields, lookupEntry_append, lookupEntry_optional, lookupEntry]

/-! ## The payload reads back -/

/-- The keys of a payload are distinct. -/
theorem nodup_keys_payloadFields : ((payloadFields compact s).map Prod.fst).Nodup := by
  have hoptional : ∀ (absent : Prop) [Decidable absent] (k : Text) (v : Json),
      ((if absent then [] else [(k, v)]).map Prod.fst).Sublist [k] := by
    intro absent _ k v
    by_cases habsent : absent
    · simp [habsent]
    · simp [habsent]
  have hkeys : ((payloadFields compact s).map Prod.fst).Sublist
      (["c".toText] ++ ["s".toText] ++ ["t".toText] ++ ["tt".toText] ++ ["p".toText]) := by
    simp only [payloadFields, modeFields, List.map_append]
    refine .append (.append (.append (.append ?_ ?_) ?_) ?_) ?_
    · exact List.Sublist.refl _
    · exact hoptional _ _ _
    · exact hoptional _ _ _
    · exact hoptional _ _ _
    · exact hoptional _ _ _
  have hall : (["c".toText] ++ ["s".toText] ++ ["t".toText] ++ ["tt".toText] ++
      ["p".toText]).Nodup := by decide
  exact hkeys.nodup hall

theorem readable_payload {room : Nat} : Json.Readable (room + 3) (payload compact s) := by
  rw [payload_eq]
  refine .obj nodup_keys_payloadFields ?_
  intro f hf
  simp only [payloadFields, modeFields, List.mem_append, List.mem_singleton, List.mem_ite_nil_left]
    at hf
  rcases hf with (((rfl | ⟨-, rfl⟩) | ⟨-, rfl⟩) | ⟨-, rfl⟩) | ⟨-, rfl⟩
  · exact .str _
  · exact .str _
  · exact s.theme.readable_overridesJson
  · exact Json.readable_ofTexts s.tooltips
  · exact Session.readable_annotations s.participants

theorem payloadMode_payloadFields (hmode : isKnownMode s.syntaxMode = true) :
    payloadMode (payloadFields compact s) = .ok s.syntaxMode := by
  unfold payloadMode Json.givenField?
  rw [lookupEntry_mode]
  by_cases hmermaid : s.syntaxMode = mermaidMode
  · rw [if_pos hmermaid, hmermaid]
  · -- A known syntax has a name, so it is not taken for a missing one.
    have hname : (Json.str s.syntaxMode).isVoid = false := by
      show s.syntaxMode.isEmpty = false
      cases hempty : s.syntaxMode with
      | nil =>
          rw [hempty] at hmode
          exact absurd hmode (by decide)
      | cons c mode => rfl
    simp only [if_neg hmermaid, hname, Bool.false_eq_true, if_false, hmode, if_true]

theorem payloadCode_payloadFields :
    payloadCode (payloadFields compact s) = Shortcut.restore (sentCode compact s.code) := by
  unfold payloadCode Json.givenField?
  rw [lookupEntry_code, ← Shortcut.restore_substitute]
  cases Shortcut.substitute (sentCode compact s.code) with
  | nil => rfl
  | cons c code => rfl

/-- A map that is left out when it is empty is read back. -/
theorem payloadMap_of_lookupEntry {absent : Bool}
    (h : lookupEntry key fields = if absent then none else some (.obj entries))
    (habsent : absent = true → entries = []) : payloadMap fields key = .ok entries := by
  unfold payloadMap Json.fieldOrNull
  rw [h]
  cases absent with
  | true => rw [habsent rfl]; rfl
  | false => simp

/-- The session is read back from the fields of its payload. -/
theorem sessionOfFields_payloadFields (hmode : isKnownMode s.syntaxMode = true) :
    sessionOfFields (payloadFields compact s) =
      .ok { s with code := Shortcut.restore (sentCode compact s.code) } := by
  -- What is left out of the payload is what an empty map of fields is read as.
  have hcolours : payloadMap (payloadFields compact s) "t".toText =
      .ok (s.theme.overrides.map fun e => (e.1, .str e.2)) := by
    apply payloadMap_of_lookupEntry lookupEntry_theme
    intro hdefault
    rw [Theme.overrides_eq_nil hdefault]
    rfl
  have htooltips : payloadMap (payloadFields compact s) "tt".toText =
      .ok (s.tooltips.entries.map fun e => (e.1, .str e.2)) := by
    apply payloadMap_of_lookupEntry lookupEntry_tooltips
    intro hempty
    rw [List.isEmpty_iff.mp hempty]
    rfl
  have hparticipants : payloadMap (payloadFields compact s) "p".toText =
      .ok (s.participants.mapValues Annotation.toJson).entries := by
    apply payloadMap_of_lookupEntry lookupEntry_participants
    intro hempty
    rw [TextMap.entries_mapValues, List.isEmpty_iff.mp hempty]
    rfl
  unfold sessionOfFields
  rw [payloadMode_payloadFields hmode, hcolours, htooltips, hparticipants]
  simp only [bind, Except.bind, Session.readAnnotations?_toJson, payloadCode_payloadFields,
    Theme.ofFields_overrides, Session.readTexts_ofTexts]

/-! ## Texts of characters -/

theorem isScalar_short : ∀ shortcut ∈ Shortcut.table, shortcut.short.isScalar = true := by
  decide

theorem isScalar_sentText (compact : Bool) (hs : s.IsScalar) :
    (Shortcut.substitute (sentCode compact s.code)).isScalar = true := by
  have hcode : s.code.isScalar = true := hs s.code List.mem_cons_self
  have hsent : (sentCode compact s.code).isScalar = true := by
    cases compact with
    | false => exact hcode
    | true => exact Text.isScalar_compactLines hcode
  refine List.foldlRecOn (motive := fun u => Text.isScalar u = true) Shortcut.table _ hsent ?_
  intro u hu shortcut hshortcut
  have hfull := Shortcut.separated_table.full_ne_nil shortcut hshortcut
  have hreplaced : Text.Replaced shortcut.full shortcut.short u
      (Text.replaceAll shortcut.full shortcut.short u) := Text.replaced_replaceAll hfull u
  exact hreplaced.isScalar (isScalar_short shortcut hshortcut) hu

theorem allTexts_payload (hs : s.IsScalar) :
    Json.AllTexts Text.isScalar (payload compact s) := by
  have hsent := isScalar_sentText compact hs
  simp only [Session.IsScalar, Session.texts, List.forall_mem_cons, List.forall_mem_append,
    List.forall_mem_flatMap, List.not_mem_nil, false_imp_iff, implies_true, and_true] at hs
  obtain ⟨-, hmode, ⟨htheme, htooltips⟩, hparticipants⟩ := hs
  -- Each field has a plain name, and its value holds texts of the session.
  have hfields : ∀ f ∈ payloadFields compact s,
      f.1.isScalar = true ∧ Json.AllTexts Text.isScalar f.2 := by
    intro f hf
    simp only [payloadFields, modeFields, List.mem_append, List.mem_singleton,
      List.mem_ite_nil_left] at hf
    rcases hf with (((rfl | ⟨-, rfl⟩) | ⟨-, rfl⟩) | ⟨-, rfl⟩) | ⟨-, rfl⟩
    · exact ⟨rfl, .str hsent⟩
    · exact ⟨rfl, .str hmode⟩
    · exact ⟨rfl, Theme.allTexts_overridesJson (fun _ => id) htheme⟩
    · exact ⟨rfl, Json.allTexts_ofTexts htooltips⟩
    · exact ⟨rfl, Session.allTexts_annotations (fun _ => id) hparticipants⟩
  exact .obj (fun f hf => (hfields f hf).1) fun f hf => (hfields f hf).2

/-- The text that a token carries is made of characters when those of the session are. -/
theorem isScalar_payloadText (hs : s.IsScalar) : (payloadText compact s).isScalar = true :=
  Json.isScalar_write Json.plain_dense (allTexts_payload hs)

/-! ## Tokens of a session -/

theorem exists_tokenOfSession?_eq_some (hs : s.IsScalar) (compact : Bool) :
    ∃ token, tokenOfSession? compact s = some token :=
  exists_tokenOfText?_eq_some (isScalar_payloadText hs)

/-- A payload is written with a brace in front. -/
theorem exists_payloadText_eq_cons (compact : Bool) (s : Session) :
    ∃ t, payloadText compact s = .char '{' :: t :=
  ⟨_, rfl⟩

/-- Both kinds of tokens of a session carry the text of its payload. -/
theorem textOfToken_of_isTokenOf {token : Text} (h : IsTokenOf token (payloadText compact s)) :
    textOfToken token = .ok (payloadText compact s) := by
  rcases h with hpacked | hfallback
  · obtain ⟨t, ht⟩ := exists_payloadText_eq_cons compact s
    apply textOfToken_packedToken hpacked
    -- The brace lies behind the letters that make a token look like a fallback.
    rw [ht]
    intro c hc
    obtain rfl : .char '{' = c := Option.some.inj hc
    decide
  · exact textOfToken_of_fallbackToken? hfallback

theorem token_ne_nil {token t : Text} (ht : t ≠ []) (h : IsTokenOf token t) : token ≠ [] := by
  rcases h with hpacked | hfallback
  · obtain ⟨c, u, rfl⟩ := List.exists_cons_of_ne_nil ht
    intro htoken
    have hhead := head?_packedToken hpacked
    rw [htoken] at hhead
    contradiction
  · rw [(fallbackToken?_eq_some_iff.mp hfallback).2]
    exact List.cons_ne_nil _ _

/-- The session is read back from the text of its payload. -/
theorem sessionOfText_payloadText [Json.Stack] (hmode : isKnownMode s.syntaxMode = true)
    (hs : s.IsScalar) :
    sessionOfText (payloadText compact s) =
      .ok { s with code := Shortcut.restore (sentCode compact s.code) } := by
  have hunsplit : Json.AllTexts Json.isUnsplit (payload compact s) :=
    (allTexts_payload hs).imp fun _ ht => Json.isUnsplit_of_isScalar ht
  have hparse : Json.parse (payloadText compact s) = .ok (payload compact s) :=
    Json.parse_write Json.punctuated_dense readable_payload hunsplit
  have hread : sessionOfPayload (payload compact s) =
      .ok { s with code := Shortcut.restore (sentCode compact s.code) } :=
    sessionOfFields_payloadFields hmode
  simp only [sessionOfText, hparse, hread]
  rfl

/-- Each token of a session carries the session. -/
theorem sessionOfToken_of_isTokenOf [Json.Stack] {token : Text}
    (hmode : isKnownMode s.syntaxMode = true) (hs : s.IsScalar)
    (h : IsTokenOf token (payloadText compact s)) :
    sessionOfToken token =
      .ok (some { s with code := Shortcut.restore (sentCode compact s.code) }) := by
  have htoken : token.isEmpty = false := by
    obtain ⟨t, ht⟩ := exists_payloadText_eq_cons compact s
    have hne := token_ne_nil (by rw [ht]; exact List.cons_ne_nil _ _) h
    simpa using hne
  have hread : readToken token =
      .ok { s with code := Shortcut.restore (sentCode compact s.code) } := by
    rw [readToken_of_ok (textOfToken_of_isTokenOf h), sessionOfText_payloadText hmode hs]
  rw [sessionOfToken, htoken, hread]
  rfl

theorem short_ne_nil_and_newline_notMem :
    ∀ shortcut ∈ Shortcut.table, shortcut.short ≠ [] ∧ .char '\n' ∉ shortcut.short := by
  decide

/-- No token comes into a diagram when its lines are trimmed. -/
theorem hasToken_sentCode {code : Text} (h : Shortcut.hasToken code = false) :
    Shortcut.hasToken (sentCode compact code) = false := by
  cases compact with
  | false => exact h
  | true =>
      rw [Shortcut.hasToken_eq_false_iff] at h ⊢
      intro shortcut hmem hinside
      obtain ⟨hne, hline⟩ := short_ne_nil_and_newline_notMem shortcut hmem
      exact h shortcut hmem (Text.infix_of_infix_compactLines hne hline hinside)

/-- A session whose texts are made of characters has a token, and it comes back from it with
the tokens of its diagram expanded; without such tokens it comes back as it was sent.  It makes
no difference which of the two kinds of tokens is used. -/
theorem sessionOfToken_tokenOfSession [Json.Stack] {s : Session}
    (hmode : isKnownMode s.syntaxMode = true) (hs : s.IsScalar) (compact : Bool) :
    ∃ token, tokenOfSession? compact s = some token ∧
      sessionOfToken token =
        .ok (some { s with code := Shortcut.restore (sentCode compact s.code) }) ∧
      (Shortcut.hasToken s.code = false →
        sessionOfToken token = .ok (some { s with code := sentCode compact s.code })) ∧
      ∀ other, packedToken (payloadText compact s) = .ok other ∨
          fallbackToken? (payloadText compact s) = some other →
        sessionOfToken other = sessionOfToken token := by
  obtain ⟨token, htoken⟩ := exists_tokenOfSession?_eq_some hs compact
  have hown := sessionOfToken_of_isTokenOf hmode hs (isTokenOf_of_tokenOfText? htoken)
  refine ⟨token, htoken, hown, ?_, ?_⟩
  · intro hcode
    rw [Shortcut.restore_eq_self_iff.mpr (hasToken_sentCode hcode)] at hown
    exact hown
  · intro other hother
    exact (sessionOfToken_of_isTokenOf hmode hs hother).trans hown.symm

/-- A diagram in PlantUML with a literal token and a blank line, in a theme with
one colour of its own. -/
def literalSession : Session where
  code := " ~P \"é\"\n\nA ->> B".toText
  syntaxMode := plantUmlMode
  theme := { Theme.default with primary := "red".toText }
  tooltips := TextMap.ofList [("m".toText, "← \\ \x01".toText)]
  participants := TextMap.ofList [("A".toText, ⟨"first".toText, [], "日".toText⟩)]

theorem isKnownMode_literalSession : isKnownMode literalSession.syntaxMode = true := by
  decide

theorem restore_sentCode_literalSession :
    Shortcut.restore (sentCode true literalSession.code) =
      "participant \"é\"\nA ->> B".toText := by
  decide

theorem isScalar_literalSession : literalSession.IsScalar := by
  decide

theorem sessionOfToken_literalSession :
    isKnownMode literalSession.syntaxMode = true ∧ literalSession.IsScalar ∧
      ∃ token, tokenOfSession? true literalSession = some token ∧
        @sessionOfToken .usual token =
          .ok (some { literalSession with code := "participant \"é\"\nA ->> B".toText }) := by
  obtain ⟨token, htoken, hread, -, -⟩ := @sessionOfToken_tokenOfSession .usual _
    isKnownMode_literalSession isScalar_literalSession true
  refine ⟨isKnownMode_literalSession, isScalar_literalSession, token, htoken, ?_⟩
  rw [← restore_sentCode_literalSession]
  exact hread

end Lifeline.Share
