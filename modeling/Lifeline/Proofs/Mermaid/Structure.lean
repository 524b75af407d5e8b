import Lifeline.Proofs.Mermaid.Message

/-!
# Lines of structure

Comments, notes and the lines that open or divide a fragment declare nothing, and
they are meant to hold no message either.  But whether a line is a message is asked
before, so a comment or a label in which an arrow joins two parts is one.  Any other
line of structure can be deleted from a diagram without a trace in its outline.
-/

namespace Lifeline.Mermaid

variable {line t word head : Text} {c : CodePoint} {ls before behind : List Text}

/-- The words in front of notes, titles, fragments, their parts, and frames. -/
def openingWords : List Text :=
  ["Note".toText, "title".toText, "loop".toText, "alt".toText, "else".toText, "opt".toText,
    "par".toText, "and".toText, "critical".toText, "break".toText, "rect".toText, "box".toText]

/-- A line begins with the sign of a comment, or with a word of structure and white
space. -/
def OpensStructure (line : Text) : Prop :=
  (∃ rest, line = "%%".toText ++ rest) ∨
    ∃ word ∈ openingWords, ∃ c rest, Text.isBlank c = true ∧ line = word ++ c :: rest

/-! ## What a line of structure is -/

theorem isStructural_append {rest : Text} (hword : word ∈ structuralWords)
    (hhead : Text.afterKeyword? word head = some []) (hrest : Text.atWordEnd rest = true) :
    isStructural (head ++ rest) = true := by
  rw [isStructural, Bool.or_eq_true]
  refine Or.inr (List.any_eq_true.mpr ⟨word, hword, ?_⟩)
  rw [Text.afterKeyword?_append_self hhead rest]
  exact hrest

theorem isStructural_note (hc : Text.isBlank c = true) (rest : Text) :
    isStructural ("Note".toText ++ c :: rest) = true := by
  have hself : Text.afterKeyword? "note".toText "Note".toText = some [] := rfl
  have hafter : Text.afterKeyword? "note".toText ("Note".toText ++ c :: rest) = some (c :: rest) :=
    Text.afterKeyword?_append_self hself (c :: rest)
  simp only [isStructural, hafter, Text.afterBlanks?_cons_of_isBlank rest hc, Option.isSome_some,
    Bool.or_true, Bool.true_or]

theorem atWordEnd_cons_of_isBlank (hc : Text.isBlank c = true) (rest : Text) :
    Text.atWordEnd (c :: rest) = true := by
  have hword : Text.isWord c = false := by
    apply eq_false_of_ne_true
    intro hw
    rw [Text.isBlank_of_isWord hw] at hc
    contradiction
  rw [Text.atWordEnd, hword, Bool.not_false]

theorem OpensStructure.isStructural (h : OpensStructure line) : isStructural line = true := by
  obtain ⟨rest, rfl⟩ | ⟨word, hword, c, rest, hc, rfl⟩ := h
  · rfl
  · have hwords : ∀ word ∈ openingWords, word = "Note".toText ∨
        word ∈ structuralWords ∧ Text.afterKeyword? word word = some [] := by decide
    rcases hwords word hword with rfl | ⟨hstructural, hself⟩
    · exact isStructural_note hc rest
    · exact isStructural_append hstructural hself (atWordEnd_cons_of_isBlank hc rest)

/-- A line of structure begins like no declaration. -/
theorem OpensStructure.declaration?_eq_none (h : OpensStructure line) :
    declaration? line = none := by
  have hafter : ∀ keyword ∈ ["create".toText, "participant".toText, "actor".toText],
      Text.after? keyword line = none := by
    obtain ⟨rest, rfl⟩ | ⟨word, hword, c, rest, hc, rfl⟩ := h
    · intro keyword hkeyword
      have hfirst : ∀ keyword ∈ ["create".toText, "participant".toText, "actor".toText],
          ∃ d tail, keyword = d :: tail ∧ d ≠ '%' := by simp
      obtain ⟨d, tail, rfl, hd⟩ := hfirst keyword hkeyword
      show Text.after? (d :: tail) (.char '%' :: .char '%' :: rest) = none
      rw [Text.after?, if_neg hd]
    · intro keyword hkeyword
      have hnone : ∀ keyword ∈ ["create".toText, "participant".toText, "actor".toText],
          keyword.any Text.isBlank = false ∧
            ∀ word ∈ openingWords, Text.after? keyword word = none := by decide
      obtain ⟨hletters, hwords⟩ := hnone keyword hkeyword
      -- No keyword has white space in it, so it would have to be found in the word.
      have hblank : c ∉ keyword := fun hmem => List.any_eq_false.mp hletters c hmem hc
      rw [Text.after?_append hblank, hwords word hword, Option.map_none]
  have hhere : declarationHere? line = none := by
    simp only [declarationHere?, hafter "participant".toText (by simp),
      hafter "actor".toText (by simp), Option.map_none]
  simp only [declaration?, hafter "create".toText (by simp), hhere]

theorem OpensStructure.isEmpty_eq_false (h : OpensStructure line) : line.isEmpty = false := by
  obtain ⟨rest, rfl⟩ | ⟨word, -, c, rest, -, rfl⟩ := h
  · rfl
  · simp

/-- A line of structure is known as one unless an arrow joins two parts of it. -/
theorem OpensStructure.ofLine_eq (h : OpensStructure line) (hjoins : ¬ JoinsByArrow line) :
    LineKind.ofLine line = .structural := by
  rw [LineKind.ofLine, h.isEmpty_eq_false, if_neg (by decide), h.declaration?_eq_none]
  simp only [message?_eq_none_iff.mpr hjoins, h.isStructural, if_true]

theorem OpensStructure.exists_ofLine_eq (h : OpensStructure line) (hjoins : JoinsByArrow line) :
    ∃ m, LineKind.ofLine line = .message m := by
  obtain ⟨m, hm⟩ := exists_message?_iff.mpr hjoins
  refine ⟨m, ?_⟩
  rw [LineKind.ofLine, h.isEmpty_eq_false, if_neg (by decide), h.declaration?_eq_none]
  simp only [hm]

/-! ## Outlines of lines -/

/-- What a line is, once trimmed. -/
def kindOf (line : Text) : LineKind :=
  LineKind.ofLine (Text.strip line)

/-- The outline of lines that are not trimmed. -/
def outlineOfLines (ls : List Text) : Outline :=
  ⟨(ls.flatMap fun l => (kindOf l).mentions).foldl addParticipant [],
    numberedFrom 0 (ls.filterMap fun l => (kindOf l).message?)⟩

theorem outline_eq (t : Text) : outline t = outlineOfLines (Text.lines t) := by
  simp [outline, participants, messages, lineKinds, PlantUml.trimmedLines, outlineOfLines,
    kindOf, List.flatMap_map, List.filterMap_map, Function.comp_def]

/-- Lines that are joined have the outline that they have together. -/
theorem outline_unlines (hls : ∀ l ∈ ls, .char '\n' ∉ l) :
    outline (Text.unlines ls) = outlineOfLines ls := by
  cases ls with
  | nil => rfl
  | cons l ls =>
      rw [outline_eq, Text.lines_unlines (List.cons_ne_nil l ls) hls]

theorem length_numberedFrom (index : Nat) (ms : List Message) :
    (numberedFrom index ms).length = ms.length := by
  induction ms generalizing index with
  | nil => rfl
  | cons m ms ih => rw [numberedFrom, List.length_cons, List.length_cons, ih]

/-- A line without participants and messages can be deleted. -/
theorem outlineOfLines_deleteLine (hmentions : (kindOf line).mentions = [])
    (hmessage : (kindOf line).message? = none) (before behind : List Text) :
    outlineOfLines (before ++ line :: behind) = outlineOfLines (before ++ behind) := by
  simp only [outlineOfLines, List.flatMap_append, List.flatMap_cons, hmentions, List.nil_append,
    List.filterMap_append, List.filterMap_cons, hmessage]

theorem outlineOfLines_eq_of_structural (h : kindOf line = .structural)
    (before behind : List Text) :
    outlineOfLines (before ++ line :: behind) = outlineOfLines (before ++ behind) :=
  outlineOfLines_deleteLine (by rw [h]; rfl) (by rw [h]; rfl) before behind

theorem outlineOfLines_ne_of_message {m : Message} (h : kindOf line = .message m)
    (before behind : List Text) :
    outlineOfLines (before ++ line :: behind) ≠ outlineOfLines (before ++ behind) := by
  have hmessage : (kindOf line).message? = some m := by rw [h]; rfl
  intro heq
  have hlength := congrArg (fun o => o.steps.length) heq
  simp only [outlineOfLines, length_numberedFrom, List.filterMap_append, List.filterMap_cons,
    hmessage, List.length_append, List.length_cons] at hlength
  omega

/-- A line of structure can be deleted from a diagram, with all participants, messages
and places as they were, exactly when no arrow joins two parts of the line. -/
theorem outline_deleteLine_iff (hlines : Text.lines t = before ++ line :: behind)
    (h : OpensStructure (Text.strip line)) :
    outline (Text.unlines (before ++ behind)) = outline t ↔ ¬ JoinsByArrow (Text.strip line) := by
  have hclean : ∀ l ∈ before ++ behind, .char '\n' ∉ l := by
    intro l hl
    apply Text.newline_notMem_of_mem_lines (t := t)
    rw [hlines]
    rcases List.mem_append.mp hl with hl | hl
    · exact List.mem_append_left _ hl
    · exact List.mem_append_right _ (List.mem_cons_of_mem _ hl)
  rw [outline_unlines hclean, outline_eq t, hlines]
  constructor
  · -- A message has a step of its own, so there is one step less without its line.
    intro heq hjoins
    obtain ⟨m, hm⟩ := h.exists_ofLine_eq hjoins
    exact outlineOfLines_ne_of_message hm before behind heq.symm
  · intro hjoins
    exact (outlineOfLines_eq_of_structural (h.ofLine_eq hjoins) before behind).symm

/-- A comment, and a message that is commented out. -/
def commentedDiagram : Text :=
  "A->>B: x\n %% to be done\n%% A->>C: off".toText

theorem outline_deleteLine_iff_commentedDiagram :
    Text.lines commentedDiagram =
        ["A->>B: x".toText] ++ " %% to be done".toText :: ["%% A->>C: off".toText] ∧
      OpensStructure (Text.strip " %% to be done".toText) ∧
      (outline (Text.unlines ["A->>B: x".toText, "%% A->>C: off".toText]) =
          outline commentedDiagram ↔
        ¬ JoinsByArrow (Text.strip " %% to be done".toText)) := by
  have hlines : Text.lines commentedDiagram =
      ["A->>B: x".toText] ++ " %% to be done".toText :: ["%% A->>C: off".toText] := by decide
  have hopens : OpensStructure (Text.strip " %% to be done".toText) :=
    Or.inl ⟨" to be done".toText, by decide⟩
  exact ⟨hlines, hopens, outline_deleteLine_iff hlines hopens⟩

/-- A message that is commented out is still a message, from a participant whose name
begins with the sign of the comment. -/
theorem outline_commentedMessage :
    Text.lines "A->>B: x\n%% A->>C: off".toText =
        ["A->>B: x".toText, "%% A->>C: off".toText] ∧
      OpensStructure (Text.strip "%% A->>C: off".toText) ∧
      outline "A->>B: x".toText =
        ⟨[⟨['A'], none, false⟩, ⟨['B'], none, false⟩], [⟨0, ⟨['A'], ['B'], ['x'], false⟩⟩]⟩ ∧
      outline "A->>B: x\n%% A->>C: off".toText =
        ⟨[⟨['A'], none, false⟩, ⟨['B'], none, false⟩, ⟨"%% A".toText, none, false⟩,
            ⟨['C'], none, false⟩],
          [⟨0, ⟨['A'], ['B'], ['x'], false⟩⟩,
            ⟨1, ⟨"%% A".toText, ['C'], "off".toText, false⟩⟩]⟩ :=
  ⟨rfl, Or.inl ⟨" A->>C: off".toText, rfl⟩, rfl, rfl⟩

end Lifeline.Mermaid
