import Lifeline.Proofs.PlantUml.SkippedRegions

/-!
# What a note on several lines swallows

Three kinds of notes can be opened, and PlantUML closes each with a line of its own.  The
converter waits for the line that closes a plain note, whatever kind was opened: it drops
the lines up to the first such line, and all lines when there is none.  So notes of the
plain kind swallow only themselves, and those of the two others what follows them too.
-/

namespace Lifeline.PlantUml

variable {k : NoteKind} {ls rest : List Text} {opener : Text}

/-- A line leaves a note open. -/
def leavesOpen (line : Text) : Bool :=
  !Note.ends (Text.strip line)

/-- The lines behind the first one that closes a plain note; none without such a line. -/
def behindNote (ls : List Text) : List Text :=
  (ls.dropWhile leavesOpen).tail

/-- Whatever stands in a note that is opened and closed by lines of this kind, what follows
it is converted as if the note were not there. -/
def NoteKind.SwallowsItself (k : NoteKind) : Prop :=
  ∀ opener body closer behind, k.Opens (Text.strip opener) →
    (∀ l ∈ body, ¬ k.Closes (Text.strip l)) → k.Closes (Text.strip closer) →
      (∀ l ∈ opener :: (body ++ closer :: behind), .char '\n' ∉ l) →
        convert (Text.unlines (opener :: (body ++ closer :: behind))) =
          convert (Text.unlines behind)

theorem leavesOpen_iff {line : Text} :
    leavesOpen line = true ↔ ¬ NoteKind.plain.Closes (Text.strip line) := by
  rw [leavesOpen, Bool.not_eq_true', ← Bool.not_eq_true, ends_iff]

/-! ## Lines that are dropped to the end -/

theorem convertedAs_nil (hls : ∀ l ∈ ls, .char '\n' ∉ l)
    (hdropped : AllDropped .neutral (ls.map Text.strip)) : ConvertedAs ls [] := by
  refine convertedAs_of hls (fun l hl => absurd hl List.not_mem_nil) ?_ ?_
  · rw [hdropped.mermaid_eq_nil]
    rfl
  · rw [hdropped.refused?_eq_none]
    rfl

/-- A note that is not closed swallows all lines. -/
theorem allDropped_note (hopen : k.Opens opener) (hls : ∀ l ∈ ls, ¬ NoteKind.plain.Closes l) :
    AllDropped .neutral (opener :: ls) := by
  have hopener : step .neutral opener = (.note, .dropped) := hopen.neutralStep_eq
  refine allDropped_cons.mpr ⟨by rw [hopener], ?_⟩
  rw [hopener]
  refine allDropped_of_busy fun front hfront _ => ?_
  rw [modeAfter_note fun l hl => hls l (hfront.subset hl)]
  decide

/-! ## Lines up to the one that closes a note -/

theorem convertedAs_of_closed {closer : Text} {body behind : List Text}
    (hopen : k.Opens (Text.strip opener))
    (hbody : ∀ l ∈ body, ¬ NoteKind.plain.Closes (Text.strip l))
    (hclose : NoteKind.plain.Closes (Text.strip closer))
    (hls : ∀ l ∈ opener :: (body ++ closer :: behind), .char '\n' ∉ l) :
    ConvertedAs (opener :: (body ++ closer :: behind)) behind := by
  have hregion : Region ((opener :: (body ++ [closer])).map Text.strip) := by
    rw [List.map_cons, List.map_append]
    exact .note hopen (List.forall_mem_map.mpr hbody) hclose
  have hlines : opener :: (body ++ closer :: behind) =
      [] ++ ((opener :: (body ++ [closer])) ++ behind) := by
    simp
  rw [hlines] at hls ⊢
  exact convertedAs_of_invisible hls rfl hregion.invisible

/-- A note swallows the lines up to the first one that closes a plain note. -/
theorem convertedAs_behindNote (hopen : k.Opens (Text.strip opener))
    (hls : ∀ l ∈ opener :: rest, .char '\n' ∉ l) :
    ConvertedAs (opener :: rest) (behindNote rest) := by
  have hcut := List.takeWhile_append_dropWhile (p := leavesOpen) (l := rest)
  have hbody : ∀ l ∈ rest.takeWhile leavesOpen, ¬ NoteKind.plain.Closes (Text.strip l) :=
    fun l hl => leavesOpen_iff.mp (List.mem_takeWhile_imp hl)
  unfold behindNote
  -- The lines are cut in front of the first one that closes a plain note, if there is one.
  cases hdrop : rest.dropWhile leavesOpen with
  | nil =>
      rw [hdrop, List.append_nil] at hcut
      rw [hcut] at hbody
      exact convertedAs_nil hls (allDropped_note hopen (List.forall_mem_map.mpr hbody))
  | cons closer behind =>
      have hclose : NoteKind.plain.Closes (Text.strip closer) := by
        have hhead := List.head?_dropWhile_not leavesOpen rest
        rw [hdrop] at hhead
        by_contra hnot
        simp [leavesOpen_iff.mpr hnot] at hhead
      rw [hdrop] at hcut
      rw [← hcut] at hls
      have hswallowed := convertedAs_of_closed hopen hbody hclose hls
      rwa [hcut] at hswallowed

/-! ## Kinds -/

theorem swallowsItself_plain : NoteKind.plain.SwallowsItself :=
  fun _ _ _ _ hopen hbody hclose hls => (convertedAs_of_closed hopen hbody hclose hls).1

theorem spells_word (k : NoteKind) : Text.Spells k.word k.word := by
  cases k with
  | plain => exact Text.spells_of_map_toLower (by decide)
  | hexagonal => exact Text.spells_of_map_toLower (by decide)
  | rectangular => exact Text.spells_of_map_toLower (by decide)

theorem opens_over (k : NoteKind) : k.Opens (k.word ++ " over A".toText) where
  begins := ⟨k.word, [' '], "over".toText, " A".toText, rfl, spells_word k, by decide, by decide,
    ⟨"over".toText, by decide, Text.spells_of_map_toLower (by decide)⟩, by decide⟩
  noColon := by
    cases k with
    | plain => decide
    | hexagonal => decide
    | rectangular => decide

theorem closes_end (k : NoteKind) : k.Closes ("end".toText ++ k.word) :=
  ⟨"end".toText, [], k.word, rfl, Text.spells_of_map_toLower (by decide), rfl, spells_word k⟩

/-- A line behind a note of another kind is not converted. -/
theorem not_swallowsItself (hk : k ≠ .plain) : ¬ k.SwallowsItself := by
  intro h
  -- The closing line is taken for a line of the note, and so is the line behind it.
  have hempty := h (k.word ++ " over A".toText) [] ("end".toText ++ k.word)
    ["autonumber".toText]
  cases k with
  | plain => exact hk rfl
  | hexagonal =>
      refine absurd (hempty ?_ (by simp) ?_ (by decide)) (by decide +kernel)
      · exact opens_over .hexagonal
      · exact closes_end .hexagonal
  | rectangular =>
      refine absurd (hempty ?_ (by simp) ?_ (by decide)) (by decide +kernel)
      · exact opens_over .rectangular
      · exact closes_end .rectangular

/-- Only notes of the plain kind swallow just themselves.  Whatever its kind, a note swallows
all lines up to the first one that closes a plain note, also when it is converted strictly. -/
theorem swallowsItself_iff (k : NoteKind) : (k.SwallowsItself ↔ k = .plain) ∧
    ∀ opener rest, k.Opens (Text.strip opener) → (∀ l ∈ opener :: rest, .char '\n' ∉ l) →
      ConvertedAs (opener :: rest) (behindNote rest) := by
  refine ⟨⟨fun h => ?_, ?_⟩, fun opener rest hopen hls => convertedAs_behindNote hopen hls⟩
  · by_contra hk
    exact not_swallowsItself hk h
  · rintro rfl
    exact swallowsItself_plain

/-- A hexagonal note is dropped as a whole when a plain closing line ends it. -/
theorem swallowsItself_iff_hexagonal : ¬ NoteKind.hexagonal.SwallowsItself ∧
    ConvertedAs ["hnote over A".toText, "endhnote".toText, "end note".toText,
      "A -> B : hi".toText] ["A -> B : hi".toText] := by
  obtain ⟨hiff, hswallows⟩ := swallowsItself_iff .hexagonal
  refine ⟨fun h => absurd (hiff.mp h) (by decide), ?_⟩
  have hbehind : behindNote ["endhnote".toText, "end note".toText, "A -> B : hi".toText] =
      ["A -> B : hi".toText] := by
    decide
  rw [← hbehind]
  exact hswallows _ _ (opens_over .hexagonal) (by decide)

theorem not_closes_text (k : NoteKind) : ¬ k.Closes "text".toText := by
  rintro ⟨word, gap, keyword, hline, hword, -⟩
  have hend := hword.afterKeyword?_append (gap ++ keyword)
  rw [← hline] at hend
  have hnone : Text.afterKeyword? "end".toText "text".toText = none := by decide
  rw [hnone] at hend
  contradiction

/-- The message behind a hexagonal note that is closed is lost. -/
theorem convert_hexagonalNote :
    NoteKind.hexagonal.Opens "hnote over A".toText ∧ ¬ NoteKind.hexagonal.Closes "text".toText ∧
      NoteKind.hexagonal.Closes "endhnote".toText ∧
      convert "hnote over A\ntext\nendhnote\nA -> B : hi".toText = "sequenceDiagram".toText ∧
      convert "A -> B : hi".toText = "sequenceDiagram\n    A->>B: hi".toText :=
  ⟨opens_over .hexagonal, not_closes_text .hexagonal, closes_end .hexagonal, by decide +kernel,
    by decide +kernel⟩

end Lifeline.PlantUml
