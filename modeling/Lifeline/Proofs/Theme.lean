import Lifeline.Proofs.Json.Prefix
import Lifeline.Proofs.Json.SurrogatePairs
import Lifeline.Proofs.Json.Words
import Lifeline.Theme

/-!
# The directive of a theme

The directive is one line of printable ASCII, and between its beginning and its end stands
what it tells the renderer, as JSON.  Colours are not checked, and the writer of JSON leaves
braces and percent signs as they are: a colour with the delimiter of directives in it ends
the directive too early, and what then stands in the directive is not JSON.  A split surrogate
pair in a colour is written as its character is, and read as this (`directive_joined`).
-/

namespace Lifeline.Theme

variable {theme : Theme}

/-- What begins a directive. -/
def opening : Text := "%%\x7binit: ".toText

/-- What ends a directive. -/
def delimiter : Text := "\x7d%%".toText

/-- A text that ends with the delimiter, which stands nowhere else in it. -/
structure EndsAtDelimiter (t : Text) : Prop where
  ends : delimiter <:+ t
  first : ¬ delimiter <:+: t.dropLast

theorem isVerbatim_delimiter : Json.IsVerbatim delimiter where
  ne_nil := by decide
  verbatim := by
    have hall : delimiter.all (fun d => decide (Json.stringChar true d = [d])) = true := by decide
    exact fun d hd => of_decide_eq_true (List.all_eq_true.mp hall d hd)
  notEscape := by
    have hall : delimiter.all (fun d => !Json.isEscapeChar d) = true := by decide
    intro d hd
    have hnot := List.all_eq_true.mp hall d hd
    rwa [Bool.not_eq_true'] at hnot

/-! ## Colours -/

theorem variableColours_ne_nil (theme : Theme) : theme.variableColours ≠ [] := by
  unfold variableColours
  exact List.cons_ne_nil _ _

/-- The names of the variables are the same for every theme. -/
theorem map_fst_variableColours (theme : Theme) :
    theme.variableColours.map Prod.fst = default.variableColours.map Prod.fst := rfl

theorem nodup_variableColours (theme : Theme) :
    (theme.variableColours.map Prod.fst).Nodup := by
  rw [map_fst_variableColours]
  decide

/-- The transparency that two of the variables have cannot continue the delimiter. -/
theorem infix_append_digits_iff {colour digits : Text}
    (hdigits : digits.all CodePoint.isDigit = true)
    (hne : digits ≠ []) : delimiter <:+: colour ++ digits ↔ delimiter <:+: colour := by
  have hnone : delimiter.all (fun d => !d.isDigit) = true := by decide
  have hapart : ∀ d ∈ digits, d ∉ delimiter := by
    intro d hd hmem
    have hnot := List.all_eq_true.mp hnone d hmem
    rw [List.all_eq_true.mp hdigits d hd] at hnot
    contradiction
  obtain ⟨d, more, rfl⟩ := List.exists_cons_of_ne_nil hne
  obtain ⟨hd, hmore⟩ := List.forall_mem_cons.mp hapart
  rw [infix_append_cons_iff hd, or_iff_left]
  intro h
  exact hmore '%' (h.subset (by decide)) (by decide)

/-- The colours of the variables are the nine colours, and every one of these is used. -/
theorem forall_variableColours_iff (theme : Theme) :
    (∀ e ∈ theme.variableColours, ¬ delimiter <:+: e.1 ∧ ¬ delimiter <:+: e.2) ↔
      ∀ slot, ¬ delimiter <:+: theme.get slot := by
  have hnames : ∀ e ∈ theme.variableColours, ¬ delimiter <:+: e.1 := by
    have hdefault : ∀ name ∈ default.variableColours.map Prod.fst, ¬ delimiter <:+: name := by
      decide
    intro e he
    rw [← map_fst_variableColours theme] at hdefault
    exact hdefault e.1 (List.mem_map_of_mem he)
  have hline : delimiter <:+: theme.lineColor ++ "60".toText ↔ delimiter <:+: theme.lineColor :=
    infix_append_digits_iff (by decide) (by decide)
  have hprimary : delimiter <:+: theme.primary ++ "20".toText ↔ delimiter <:+: theme.primary :=
    infix_append_digits_iff (by decide) (by decide)
  -- Two of the variables have an opacity behind their colour, which completes no delimiter.
  have hcolours : (∀ e ∈ theme.variableColours, ¬ delimiter <:+: e.2) ↔
      ∀ slot, ¬ delimiter <:+: theme.get slot := by
    simp only [variableColours, List.forall_mem_cons, hline, hprimary]
    constructor
    · intro h slot
      cases slot <;> simp only [get, h, not_false_eq_true]
    · intro h
      exact ⟨h .primary, h .actorText, h .primary, h .secondary, h .actorText, h .secondary,
        h .background, h .lineColor, h .text, h .actorBackground, h .primary, h .actorText,
        h .lineColor, h .lineColor, h .text, h .background, h .primary, h .text, h .secondary,
        h .noteBackground, h .noteBorder, h .text, h .primary, h .primary, h .actorText,
        fun _ hmem => absurd hmem List.not_mem_nil⟩
  rw [← hcolours]
  exact ⟨fun h e he => (h e he).2, fun h e he => ⟨hnames e he, h e he⟩⟩

/-! ## The configuration -/

theorem readable_configuration {room : Nat} (theme : Theme) :
    Json.Readable (room + 2) theme.configuration := by
  have hvariables : Json.Readable (room + 1) theme.variablesJson := by
    refine .obj ?_ ?_
    · rw [List.map_map]
      exact theme.nodup_variableColours
    · intro f hf
      obtain ⟨e, -, rfl⟩ := List.mem_map.mp hf
      exact .str e.2
  have hkeys : ["theme".toText, "themeVariables".toText].Nodup := by decide
  refine .obj hkeys ?_
  simp only [List.forall_mem_cons]
  exact ⟨.str _, hvariables, fun f hf => absurd hf List.not_mem_nil⟩

theorem allTexts_configuration {p : Text → Bool}
    (hp : ∀ t : Text, t.isScalar = true → p t = true)
    (hcolours : ∀ e ∈ theme.variableColours, p e.2 = true) :
    Json.AllTexts p theme.configuration := by
  have hnames : ∀ name ∈ default.variableColours.map Prod.fst, Text.isScalar name = true := by
    decide
  rw [← map_fst_variableColours theme] at hnames
  have hvariables : Json.AllTexts p theme.variablesJson := by
    refine .obj ?_ ?_
    · intro f hf
      obtain ⟨e, he, rfl⟩ := List.mem_map.mp hf
      exact hp e.1 (hnames e.1 (List.mem_map_of_mem he))
    · intro f hf
      obtain ⟨e, he, rfl⟩ := List.mem_map.mp hf
      exact .str (hcolours e he)
  refine .obj ?_ ?_
  · simp only [List.forall_mem_cons]
    exact ⟨hp _ rfl, hp _ rfl, List.forall_mem_nil _⟩
  · simp only [List.forall_mem_cons]
    exact ⟨.str (hp _ rfl), hvariables, List.forall_mem_nil _⟩

/-! ## Colours with split pairs -/

/-- The theme with no split pair in its colours. -/
def joined (theme : Theme) : Theme :=
  ofColours fun slot => Json.joinPairs (theme.get slot)

theorem joined_eq_self (h : ∀ slot, Json.isUnsplit (theme.get slot) = true) :
    theme.joined = theme := by
  have hget : theme.joined = ofColours theme.get :=
    congrArg ofColours (funext fun slot => Json.joinPairs_eq_self (h slot))
  rw [hget]
  rfl

theorem variableColours_joined (theme : Theme) :
    theme.joined.variableColours =
      theme.variableColours.map fun e => (e.1, Json.joinPairs e.2) := by
  have hline := Json.joinPairs_append (Text.isScalar_toText "60") theme.lineColor
  have hprimary := Json.joinPairs_append (Text.isScalar_toText "20") theme.primary
  simp only [variableColours, List.map_cons, List.map_nil, hline, hprimary]
  rfl

/-- In the text of a directive a split pair is not told from its character. -/
theorem directive_joined (theme : Theme) : theme.joined.directive = theme.directive := by
  have hvariables : Json.WrittenAlike .denseAscii theme.joined.variablesJson
      theme.variablesJson := by
    apply Json.writtenAlike_obj
    rw [variableColours_joined, List.map_map, List.forall₂_map_left_iff,
      List.forall₂_map_right_iff, List.forall₂_same]
    exact fun e _ => ⟨rfl, Json.writtenAlike_joinPairs rfl e.2⟩
  have hconfiguration : Json.WrittenAlike .denseAscii theme.joined.configuration
      theme.configuration :=
    Json.writtenAlike_obj (.cons ⟨rfl, fun _ => rfl⟩ (.cons ⟨rfl, hvariables⟩ .nil))
  rw [directive, directive, Json.write, Json.write, hconfiguration 0]

theorem isUnsplit_configuration_joined (theme : Theme) :
    Json.AllTexts Json.isUnsplit theme.joined.configuration := by
  refine allTexts_configuration (fun _ => Json.isUnsplit_of_isScalar) ?_
  rw [variableColours_joined, List.forall_mem_map]
  exact fun e _ => Json.isUnsplit_joinPairs e.2

theorem parse_write_configuration [Json.Stack] (theme : Theme) :
    Json.parse (Json.write .denseAscii theme.joined.configuration) =
      .ok theme.joined.configuration :=
  Json.parse_write Json.punctuated_denseAscii theme.joined.readable_configuration
    theme.isUnsplit_configuration_joined

/-! ## The text of the configuration -/

/-- What is written in front of the variables. -/
def variablesOpening : Text := "\x7b\"theme\":\"base\",\"themeVariables\":\x7b".toText

/-- The configuration is written with the variables between fixed texts. -/
theorem write_configuration (theme : Theme) : Json.write .denseAscii theme.configuration =
    variablesOpening ++ (Json.writeFields .denseAscii 2 (Json.stringFields theme.variableColours) ++
      "\x7d\x7d".toText) := by
  have hvariables : Json.writeAt .denseAscii 1 theme.variablesJson =
      .char '{' :: (Json.writeFields .denseAscii 2 (Json.stringFields theme.variableColours) ++
        [.char '}']) :=
    Json.writeAt_denseAscii_obj (Json.stringFields_ne_nil theme.variableColours_ne_nil)
  have hfields : ∀ v, Json.writeFields .denseAscii 1 [("theme".toText, .str "base".toText),
      ("themeVariables".toText, v)] =
        "\"theme\":\"base\",\"themeVariables\":".toText ++ Json.writeAt .denseAscii 1 v :=
    fun v => rfl
  rw [configuration, Json.write, Json.writeAt_denseAscii_obj (List.cons_ne_nil _ _), hfields,
    hvariables, List.append_assoc, List.cons_append, List.append_assoc]
  rfl

/-! ## Directives -/

theorem directive_eq_append (theme : Theme) : theme.directive =
    opening ++ (Json.write .denseAscii theme.configuration ++ delimiter) :=
  List.append_assoc _ _ _

theorem isPrintableAscii_directive (theme : Theme) :
    ∀ c ∈ theme.directive, Json.IsPrintableAscii c := by
  rw [directive_eq_append, write_configuration]
  simp only [List.forall_mem_append]
  exact ⟨Json.isPrintableAscii_of_all (by decide), ⟨Json.isPrintableAscii_of_all (by decide),
    Json.isPrintableAscii_writeFields _, Json.isPrintableAscii_of_all (by decide)⟩,
    Json.isPrintableAscii_of_all (by decide)⟩

/-- The delimiter stands in front of the end of a directive exactly when it stands in one of
the colours. -/
theorem endsAtDelimiter_directive_iff (theme : Theme) :
    EndsAtDelimiter theme.directive ↔ ∀ slot, ¬ delimiter <:+: theme.get slot := by
  have hends : delimiter <:+ theme.directive := by
    rw [directive_eq_append, ← List.append_assoc]
    exact List.suffix_append _ _
  have hdropLast : theme.directive.dropLast = (opening ++ variablesOpening) ++
      (Json.writeFields .denseAscii 2 (Json.stringFields theme.variableColours) ++
        "\x7d\x7d\x7d%".toText) := by
    have hwhole : theme.directive = ((opening ++ variablesOpening) ++
        (Json.writeFields .denseAscii 2 (Json.stringFields theme.variableColours) ++
          "\x7d\x7d\x7d%".toText)) ++ [.char '%'] := by
      rw [directive_eq_append, write_configuration]
      simp [delimiter]
    rw [hwhole, List.dropLast_concat]
  have hfirst : ¬ delimiter <:+: theme.directive.dropLast ↔
      ∀ e ∈ theme.variableColours, ¬ delimiter <:+: e.1 ∧ ¬ delimiter <:+: e.2 := by
    have hfront : ¬ delimiter <:+: opening ++ variablesOpening := by decide
    have hback : ¬ delimiter <:+: "\x7d\x7d\x7d%".toText := by decide
    rw [hdropLast, isVerbatim_delimiter.infix_append_writeFields_iff (by decide) (by decide)
      theme.variableColours_ne_nil]
    simp only [hfront, hback, false_or, or_false, not_exists, not_and, not_or]
  rw [← forall_variableColours_iff, ← hfirst]
  exact ⟨fun h => h.first, fun h => ⟨hends, h⟩⟩

/-- What stands in front of a delimiter that does not end the directive is not JSON. -/
theorem parse_ne_ok_of_directive [Json.Stack] {before behind : Text}
    (h : theme.directive = opening ++ (before ++ (delimiter ++ behind))) (hbehind : behind ≠ [])
    (v : Json) : Json.parse before ≠ .ok v := by
  rw [← directive_joined, directive_eq_append] at h
  have hbody := List.append_cancel_left h
  have hlength : before.length < (Json.write .denseAscii theme.joined.configuration).length := by
    have hall := congrArg List.length hbody
    have hpositive := List.length_pos_of_ne_nil hbehind
    simp only [List.length_append] at hall
    omega
  have hpart : before <+: Json.write .denseAscii theme.joined.configuration := by
    refine List.prefix_of_prefix_length_le ?_ (List.prefix_append _ delimiter) hlength.le
    rw [hbody]
    exact List.prefix_append _ _
  refine Json.parse_ne_ok_of_prefix Json.punctuated_denseAscii
    theme.joined.readable_configuration theme.isUnsplit_configuration_joined ?_ hpart ?_ v
  · exact ⟨_, _, rfl, Or.inr (Or.inr rfl)⟩
  · rintro rfl
    exact lt_irrefl _ hlength

/-- A directive is printable ASCII, and what stands between its beginning and its end is JSON
with the variables of its theme, where a surrogate pair that a colour splits is joined.  It ends at
the first delimiter exactly when no colour has the delimiter in it; at a delimiter in front of its
end it does not hold JSON. -/
theorem directive_spec [Json.Stack] (theme : Theme) :
    (∀ c ∈ theme.directive, Json.IsPrintableAscii c) ∧
      (∃ body, theme.directive = opening ++ (body ++ delimiter) ∧
        Json.parse body = .ok (.obj [("theme".toText, .str "base".toText),
          ("themeVariables".toText, theme.joined.variablesJson)])) ∧
      ((∀ slot, Json.isUnsplit (theme.get slot) = true) → theme.joined = theme) ∧
      (EndsAtDelimiter theme.directive ↔ ∀ slot, ¬ delimiter <:+: theme.get slot) ∧
      ∀ before behind, theme.directive = opening ++ (before ++ (delimiter ++ behind)) →
        behind ≠ [] → ∀ v, Json.parse before ≠ .ok v :=
  ⟨theme.isPrintableAscii_directive,
    ⟨_, theme.directive_joined.symm.trans theme.joined.directive_eq_append,
      theme.parse_write_configuration⟩,
    joined_eq_self, theme.endsAtDelimiter_directive_iff,
    fun _ _ h hbehind v => parse_ne_ok_of_directive h hbehind v⟩

/-- The default theme with the delimiter for its first colour. -/
def delimiterTheme : Theme := { default with primary := delimiter }

/-- The directive of this theme ends behind the name of the first variable. -/
theorem directive_spec_delimiterTheme : ∃ before behind,
    delimiterTheme.directive = opening ++ (before ++ (delimiter ++ behind)) ∧ behind ≠ [] ∧
      ∀ v, @Json.parse .usual before ≠ .ok v := by
  let before := variablesOpening ++ "\"primaryColor\":\"".toText
  let behind := delimiterTheme.directive.drop (opening ++ (before ++ delimiter)).length
  have hdirective : delimiterTheme.directive = opening ++ (before ++ (delimiter ++ behind)) := by
    decide +kernel
  have hbehind : behind ≠ [] := by decide +kernel
  obtain ⟨-, -, -, -, hearly⟩ := @directive_spec .usual delimiterTheme
  exact ⟨before, behind, hdirective, hbehind, hearly before behind hdirective hbehind⟩

/-- Not every directive ends at the first delimiter in it. -/
theorem not_endsAtDelimiter_directive_delimiterTheme :
    ¬ EndsAtDelimiter delimiterTheme.directive :=
  fun h => (endsAtDelimiter_directive_iff delimiterTheme).mp h .primary (List.infix_refl _)

end Lifeline.Theme
