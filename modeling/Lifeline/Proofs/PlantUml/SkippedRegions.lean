import Lifeline.Proofs.Mermaid.Refusal
import Lifeline.Proofs.PlantUml.NoteLines

/-!
# Regions that the converter skips

A block comment, a styling block and a note on several lines are each a line that opens
the region, lines inside it, and a line that closes it.  Whatever stands inside, the
converter is busy with the region up to its last line and neutral behind it, and gives
nothing for any of its lines.  So such a region can be put into a diagram wherever the
converter is neutral, and nothing is converted or refused in another way.
-/

namespace Lifeline

namespace PlantUml

variable {mode : Mode} {ls before region behind : List Text} {line : Text}

/-! ## Lines that are dropped -/

/-- All lines are dropped. -/
def AllDropped (mode : Mode) (ls : List Text) : Prop :=
  ∀ verdict ∈ verdicts mode ls, verdict = .dropped

theorem allDropped_cons :
    AllDropped mode (line :: ls) ↔ (step mode line).2 = .dropped ∧
      AllDropped (step mode line).1 ls := by
  simp [AllDropped, verdicts_cons]

theorem AllDropped.mermaid_eq_nil (h : AllDropped mode ls) :
    (verdicts mode ls).filterMap Verdict.mermaid? = [] := by
  refine List.filterMap_eq_nil_iff.mpr fun verdict hverdict => ?_
  rw [h verdict hverdict]
  rfl

theorem AllDropped.refused?_eq_none (h : AllDropped mode ls) (number : Nat) :
    converter.refused? mode number ls = none := by
  induction ls generalizing mode number with
  | nil => rfl
  | cons l ls ih =>
      obtain ⟨hfirst, hlater⟩ := allDropped_cons.mp h
      have hknown : converter.knows mode l = true := by simp [converter, hfirst]
      rw [LineReader.refused?, if_pos hknown]
      exact ih hlater (number + 1)

/-- A converter that is not neutral drops the line. -/
theorem step_of_ne_neutral (h : mode ≠ .neutral) (line : Text) : (step mode line).2 = .dropped := by
  cases mode with
  | neutral => exact absurd rfl h
  | comment => rfl
  | note => rfl
  | styling more => rfl

/-- What is not neutral in front of any of the lines drops them all. -/
theorem allDropped_of_busy
    (h : ∀ front, front <+: ls → front ≠ ls → modeAfter mode front ≠ .neutral) :
    AllDropped mode ls := by
  induction ls generalizing mode with
  | nil => exact fun verdict hverdict => absurd hverdict List.not_mem_nil
  | cons l ls ih =>
      have hbusy : mode ≠ .neutral := h [] List.nil_prefix (List.cons_ne_nil l ls).symm
      refine allDropped_cons.mpr ⟨step_of_ne_neutral hbusy l, ih fun front hfront hne => ?_⟩
      exact h (l :: front) (List.cons_prefix_cons.mpr ⟨rfl, hfront⟩) (by simpa using hne)

/-- Lines that leave a neutral converter neutral and are all dropped. -/
structure Invisible (ls : List Text) : Prop where
  neutral : modeAfter .neutral ls = .neutral
  dropped : AllDropped .neutral ls

/-! ## Conversion of lines -/

section

variable (hls : ∀ l ∈ ls, .char '\n' ∉ l)
include hls

theorem convert_unlines : convert (Text.unlines ls) =
    diagram ((verdicts .neutral (ls.map Text.strip)).filterMap Verdict.mermaid?) := by
  rw [convert]
  rcases LineReader.trimmedLines_unlines hls with hlines | ⟨rfl, hlines⟩
  · rw [hlines]
  · rw [hlines]
    rfl

theorem mapError_convertStrict_unlines :
    (convertStrict (Text.unlines ls)).mapError UnrecognizedLine.line =
      match (converter.refused? .neutral 1 (ls.map Text.strip)).map UnrecognizedLine.line with
      | some line => .error line
      | none => .ok (convert (Text.unlines ls)) := by
  have hrefused : converter.refused? .neutral 1 (trimmedLines (Text.unlines ls)) =
      converter.refused? .neutral 1 (ls.map Text.strip) := by
    rcases LineReader.trimmedLines_unlines hls with hlines | ⟨rfl, hlines⟩
    · rw [hlines]
    · rw [hlines]
      rfl
  simp only [convertStrict, firstUnrecognized?_eq, hrefused]
  cases converter.refused? .neutral 1 (ls.map Text.strip) with
  | none => rfl
  | some e => rfl

end

/-- Lines are converted as other lines are, and the same line is refused if any. -/
def ConvertedAs (ls others : List Text) : Prop :=
  convert (Text.unlines ls) = convert (Text.unlines others) ∧
    (convertStrict (Text.unlines ls)).mapError UnrecognizedLine.line =
      (convertStrict (Text.unlines others)).mapError UnrecognizedLine.line

/-- It is enough that the trimmed lines give the same Mermaid lines, and that the same one of
them is refused. -/
theorem convertedAs_of {others : List Text} (hls : ∀ l ∈ ls, .char '\n' ∉ l)
    (hothers : ∀ l ∈ others, .char '\n' ∉ l)
    (hmermaid : (verdicts .neutral (ls.map Text.strip)).filterMap Verdict.mermaid? =
      (verdicts .neutral (others.map Text.strip)).filterMap Verdict.mermaid?)
    (hrefused : (converter.refused? .neutral 1 (ls.map Text.strip)).map UnrecognizedLine.line =
      (converter.refused? .neutral 1 (others.map Text.strip)).map UnrecognizedLine.line) :
    ConvertedAs ls others := by
  have hconvert : convert (Text.unlines ls) = convert (Text.unlines others) := by
    rw [convert_unlines hls, convert_unlines hothers, hmermaid]
  refine ⟨hconvert, ?_⟩
  rw [mapError_convertStrict_unlines hls, mapError_convertStrict_unlines hothers, hconvert,
    hrefused]

/-- Invisible lines may be put in wherever the converter is neutral. -/
theorem convertedAs_of_invisible (hls : ∀ l ∈ before ++ (region ++ behind), .char '\n' ∉ l)
    (hneutral : modeAfter .neutral (before.map Text.strip) = .neutral)
    (hregion : Invisible (region.map Text.strip)) :
    ConvertedAs (before ++ (region ++ behind)) (before ++ behind) := by
  have hothers : ∀ l ∈ before ++ behind, .char '\n' ∉ l := fun l hl =>
    hls l (((List.sublist_append_right region behind).append_left before).subset hl)
  have hmode : (before.map Text.strip).foldl converter.next .neutral = .neutral := by
    rw [← modeAfter_eq_foldl, hneutral]
  refine convertedAs_of hls hothers ?_ ?_
  · simp only [List.map_append, verdicts_append, List.filterMap_append, hneutral,
      hregion.neutral, hregion.dropped.mermaid_eq_nil, List.nil_append]
  · rw [List.map_append, List.map_append, List.map_append]
    refine LineReader.line_refused?_insert ?_ ?_ (behind.map Text.strip) 1
    · rw [hmode, ← modeAfter_eq_foldl, hregion.neutral]
    · rw [hmode]
      exact hregion.dropped.refused?_eq_none

/-! ## Regions -/

/-- How many more braces are opened than closed on some lines. -/
def braceDepth (ls : List Text) : Int :=
  (ls.map fun l => (l.count (.char '{') : Int) - (l.count (.char '}') : Int)).sum

/-- The trimmed lines of a region: one that opens it, some inside, and one that closes it. -/
inductive Region : List Text → Prop
  /-- A block comment. -/
  | comment {opener last : Text} {body : List Text} (hopen : ¬ "'/".toText <:+: opener)
      (hbody : ∀ l ∈ body, ¬ "'/".toText <:+: l) (hclose : "'/".toText <:+: last) :
      Region ((.char '/' :: .char '\'' :: opener) :: (body ++ [last]))
  /-- A block of `skinparam`: it ends as soon as no more braces are open. -/
  | styling {keyword rest last : Text} {body : List Text}
      (hkeyword : keyword.map CodePoint.toLower = "skinparam".toText)
      (hend : Text.atWordEnd rest = true)
      (hbody : ∀ front, front <+: body → 0 < braceDepth ((keyword ++ rest) :: front))
      (hclose : braceDepth ((keyword ++ rest) :: (body ++ [last])) ≤ 0) :
      Region ((keyword ++ rest) :: (body ++ [last]))
  /-- A note on several lines, of any kind. -/
  | note {k : NoteKind} {opener last : Text} {body : List Text} (hopen : k.Opens opener)
      (hbody : ∀ l ∈ body, ¬ NoteKind.plain.Closes l) (hclose : NoteKind.plain.Closes last) :
      Region (opener :: (body ++ [last]))

/-! ## The converter inside a region -/

/-- A region is invisible when the converter is busy until its last line. -/
theorem invisible_of_busy {opener last : Text} {body : List Text}
    (hopen : neutralStep opener = (mode, .dropped))
    (hbusy : ∀ front, front <+: body → modeAfter mode front ≠ .neutral)
    (hclose : modeAfter mode (body ++ [last]) = .neutral) :
    Invisible (opener :: (body ++ [last])) where
  neutral := by
    show modeAfter (neutralStep opener).1 (body ++ [last]) = .neutral
    rw [hopen, hclose]
  dropped := by
    have hopener : step .neutral opener = (mode, .dropped) := hopen
    refine allDropped_cons.mpr ⟨by rw [hopener], ?_⟩
    rw [hopener]
    -- In front of each of its lines stands a part of the body only.
    refine allDropped_of_busy fun front hfront hne => hbusy front ?_
    exact (List.prefix_concat_iff.mp hfront).resolve_left hne

/-- Lines that leave a mode leave it together. -/
theorem modeAfter_eq_self (h : ∀ l ∈ ls, (step mode l).1 = mode) : modeAfter mode ls = mode := by
  induction ls with
  | nil => rfl
  | cons l ls ih =>
      obtain ⟨hfirst, hlater⟩ := List.forall_mem_cons.mp h
      rw [modeAfter, hfirst]
      exact ih hlater

theorem closesComment_iff : closesComment line = true ↔ "'/".toText <:+: line :=
  Text.contains_eq_true_iff

theorem modeAfter_comment (h : ∀ l ∈ ls, ¬ "'/".toText <:+: l) :
    modeAfter .comment ls = .comment := by
  refine modeAfter_eq_self fun l hl => ?_
  rw [step, if_neg fun hcloses => h l hl (closesComment_iff.mp hcloses)]

theorem modeAfter_note (h : ∀ l ∈ ls, ¬ NoteKind.plain.Closes l) : modeAfter .note ls = .note := by
  refine modeAfter_eq_self fun l hl => ?_
  rw [step, if_neg fun hends => h l hl (ends_iff.mp hends)]

theorem invisible_comment {opener last : Text} {body : List Text}
    (hopen : ¬ "'/".toText <:+: opener) (hbody : ∀ l ∈ body, ¬ "'/".toText <:+: l)
    (hclose : "'/".toText <:+: last) :
    Invisible ((.char '/' :: .char '\'' :: opener) :: (body ++ [last])) := by
  have hopener : neutralStep (.char '/' :: .char '\'' :: opener) = (.comment, .dropped) := by
    rw [neutralStep, if_neg fun h => hopen (closesComment_iff.mp h)]
  refine invisible_of_busy hopener ?_ ?_
  · intro front hfront
    rw [modeAfter_comment fun l hl => hbody l (hfront.subset hl)]
    decide
  · rw [modeAfter_append, modeAfter_comment hbody, modeAfter, modeAfter, step,
      if_pos (closesComment_iff.mpr hclose)]

theorem invisible_note {k : NoteKind} {opener last : Text} {body : List Text}
    (hopen : k.Opens opener) (hbody : ∀ l ∈ body, ¬ NoteKind.plain.Closes l)
    (hclose : NoteKind.plain.Closes last) : Invisible (opener :: (body ++ [last])) := by
  refine invisible_of_busy hopen.neutralStep_eq ?_ ?_
  · intro front hfront
    rw [modeAfter_note fun l hl => hbody l (hfront.subset hl)]
    decide
  · rw [modeAfter_append, modeAfter_note hbody, modeAfter, modeAfter, step,
      if_pos (ends_iff.mpr hclose)]

/-! ## The depth of braces -/

theorem braceDepth_singleton (line : Text) :
    braceDepth [line] = (line.count (.char '{') : Int) - (line.count (.char '}') : Int) := by
  simp [braceDepth]

theorem braceDepth_append (before behind : List Text) :
    braceDepth (before ++ behind) = braceDepth before + braceDepth behind := by
  simp [braceDepth]

/-- As long as braces are open the depth is the number of braces that are. -/
theorem modeAfter_ofDepth {depth : Nat}
    (h : ∀ front, front <+: ls → front ≠ ls → 0 < depth + braceDepth front) :
    modeAfter (.ofDepth depth) ls = .ofDepth (depth + braceDepth ls).toNat := by
  -- The last line is read at the depth behind the lines in front of it.
  induction ls using List.reverseRecOn with
  | nil => simp [modeAfter, braceDepth]
  | append_singleton ls l ih =>
      have hopen : 0 < depth + braceDepth ls := h ls (List.prefix_append ls [l]) (by simp)
      have hbefore : modeAfter (.ofDepth depth) ls = .ofDepth (depth + braceDepth ls).toNat := by
        refine ih fun front hfront hne => h front (hfront.trans (List.prefix_append ls [l])) ?_
        rintro rfl
        simpa using hfront.length_le
      obtain ⟨more, hmore⟩ : ∃ more, (depth + braceDepth ls).toNat = more + 1 :=
        Nat.exists_eq_add_one.mpr (Int.lt_toNat.mpr hopen)
      have hdepth : depthBehind (more + 1) l = (depth + braceDepth (ls ++ [l])).toNat := by
        rw [braceDepth_append, braceDepth_singleton, depthBehind]
        omega
      rw [modeAfter_append, hbefore, hmore, ← hdepth]
      rfl

/-- The same is true of a block together with the line that opens it. -/
theorem modeAfter_behindOpener {opener : Text} (hopener : 0 < braceDepth [opener])
    (h : ∀ front, front <+: ls → front ≠ ls → 0 < braceDepth (opener :: front)) :
    modeAfter (.ofDepth (depthBehind 0 opener)) ls =
      .ofDepth (braceDepth (opener :: ls)).toNat := by
  have hopen : (depthBehind 0 opener : Int) = braceDepth [opener] := by
    -- The line leaves braces open, so its depth is not cut off at zero.
    rw [braceDepth_singleton] at hopener ⊢
    rw [depthBehind]
    omega
  have hdepth : ∀ ls, depthBehind 0 opener + braceDepth ls = braceDepth (opener :: ls) := by
    intro ls
    rw [hopen, ← braceDepth_append, List.singleton_append]
  rw [modeAfter_ofDepth, hdepth]
  intro front hfront hne
  rw [hdepth]
  exact h front hfront hne

/-- A line with the word `skinparam` opens a block of as many braces as it leaves open. -/
theorem neutralStep_skinparam {keyword rest : Text}
    (hkeyword : keyword.map CodePoint.toLower = "skinparam".toText)
    (hend : Text.atWordEnd rest = true) :
    neutralStep (keyword ++ rest) =
      (.ofDepth (depthBehind 0 (keyword ++ rest)), .dropped) := by
  have hword : Text.IsKeyword "skinparam".toText := by decide
  have hspells := Text.spells_of_map_toLower hkeyword
  have hstyling : isStyling (keyword ++ rest) = true := by
    simp only [isStyling, List.any_cons, hspells.afterKeyword?_append rest, hend, Bool.true_or,
      Bool.or_true]
  have hmode : modeBehindStyling (keyword ++ rest) =
      .ofDepth (depthBehind 0 (keyword ++ rest)) := by
    have hlower : Text.lower (keyword ++ rest) = "skinparam".toText ++ Text.lower rest := by
      rw [Text.lower, List.flatMap_append, ← Text.lower, ← Text.lower,
        Text.lower_eq_of_map_toLower hword hkeyword]
    rw [modeBehindStyling, Text.after?_eq_some_iff.mpr hlower, Option.isSome_some, if_pos rfl]
  obtain ⟨c, tail, rfl, hc⟩ := hspells.exists_cons hword (by decide)
  rw [List.cons_append, neutralStep_cons hc, ← List.cons_append, if_pos hstyling, hmode]

theorem invisible_styling {keyword rest last : Text} {body : List Text}
    (hkeyword : keyword.map CodePoint.toLower = "skinparam".toText)
    (hend : Text.atWordEnd rest = true)
    (hbody : ∀ front, front <+: body → 0 < braceDepth ((keyword ++ rest) :: front))
    (hclose : braceDepth ((keyword ++ rest) :: (body ++ [last])) ≤ 0) :
    Invisible ((keyword ++ rest) :: (body ++ [last])) := by
  have hopener : 0 < braceDepth [keyword ++ rest] := hbody [] List.nil_prefix
  refine invisible_of_busy (neutralStep_skinparam hkeyword hend) (fun front hfront => ?_) ?_
  · have hpositive : 0 < (braceDepth ((keyword ++ rest) :: front)).toNat :=
      Int.lt_toNat.mpr (hbody front hfront)
    obtain ⟨more, hmore⟩ := Nat.exists_eq_add_one.mpr hpositive
    rw [modeAfter_behindOpener hopener fun short hshort _ => hbody short (hshort.trans hfront),
      hmore]
    exact Mode.noConfusion
  · rw [modeAfter_behindOpener hopener fun short hshort hne =>
      hbody short ((List.prefix_concat_iff.mp hshort).resolve_left hne),
      Int.toNat_of_nonpos hclose]
    rfl

theorem Region.invisible (h : Region ls) : Invisible ls := by
  cases h with
  | comment hopen hbody hclose => exact invisible_comment hopen hbody hclose
  | styling hkeyword hend hbody hclose => exact invisible_styling hkeyword hend hbody hclose
  | note hopen hbody hclose => exact invisible_note hopen hbody hclose

/-- A region makes no difference where the converter is neutral: the lines around it are
converted as if it were not there, and a strict converter refuses the same line or none. -/
theorem convertedAs_of_region (hls : ∀ l ∈ before ++ (region ++ behind), .char '\n' ∉ l)
    (hneutral : modeAfter .neutral (before.map Text.strip) = .neutral)
    (hregion : Region (region.map Text.strip)) :
    ConvertedAs (before ++ (region ++ behind)) (before ++ behind) :=
  convertedAs_of_invisible hls hneutral hregion.invisible

/-- A styling block with a message, a note and braces inside. -/
def stylingBlock : List Text :=
  ["  SkinParam sequence \x7b".toText, "note over A \x7b".toText, "A -> B : no \x7d".toText,
    "\x7d '/".toText]

theorem region_stylingBlock : Region (stylingBlock.map Text.strip) := by
  have htrimmed : stylingBlock.map Text.strip =
      ("SkinParam".toText ++ " sequence \x7b".toText) ::
        (["note over A \x7b".toText, "A -> B : no \x7d".toText] ++ ["\x7d '/".toText]) := by
    decide
  have hopen : ∀ front ∈ List.inits ["note over A \x7b".toText, "A -> B : no \x7d".toText],
      0 < braceDepth (("SkinParam".toText ++ " sequence \x7b".toText) :: front) := by
    decide
  rw [htrimmed]
  exact .styling (by decide) (by decide)
    (fun front hfront => hopen front ((List.mem_inits front _).mpr hfront)) (by decide)

/-- Between a message and a line that is refused, such a block makes no difference. -/
theorem convertedAs_of_region_stylingBlock :
    ConvertedAs (["A -> B : hi".toText] ++ (stylingBlock ++ ["what is this".toText]))
      (["A -> B : hi".toText] ++ ["what is this".toText]) :=
  convertedAs_of_region (by decide) (by decide +kernel) region_stylingBlock

end PlantUml
end Lifeline
