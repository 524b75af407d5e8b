import Lifeline.Document
import Lifeline.Proofs.PlantUml.Emission
import Lifeline.Proofs.Text.Keywords
import Lifeline.Proofs.Text.Scanning
import Lifeline.Proofs.Text.Utf8

/-!
# Documents that are converted block by block

A document is written as prose and blocks in turns.  The first pass puts a Mermaid block in
the place of each fenced block, and the second one in the place of each bare block.  A line
of PlantUML that begins with an at sign gives nothing, so no Mermaid block has an at sign for
the second pass to stop at, and prose without backquotes and at signs is kept as it is.
-/

namespace Lifeline.Document

open Text (ReadsAs)

/-! ## Blocks as they are written -/

/-- The languages of fenced blocks. -/
def languages : List Text :=
  ["plantuml".toText, "puml".toText]

/-- A block of a document as it is written. -/
inductive WrittenBlock where
  | fenced (language body : Text)
  | bare (body : Text)

namespace WrittenBlock

/-- The diagram inside. -/
def body : WrittenBlock → Text
  | fenced _ body => body
  | bare body => body

/-- The block with its marks, each opening mark on a line of its own. -/
def text : WrittenBlock → Text
  | fenced language body => fence ++ (language ++ .char '\n' :: (body ++ fence))
  | bare body => "@startuml".toText ++ .char '\n' :: (body ++ "@enduml".toText)

/-- The block holds no diagram. -/
def isBlank (b : WrittenBlock) : Bool :=
  Text.isBlankText b.body

/-- What a document has in the place of the block. -/
def converted (b : WrittenBlock) : Text :=
  if b.isBlank then b.text else mermaidBlock (PlantUml.convert (Text.strip b.body))

/-- What the first pass has in the place of the block. -/
def afterFirstPass : WrittenBlock → Text
  | fenced language body => (fenced language body).converted
  | bare body => (bare body).text

/-- No mark of a block is inside one, but the lines of a fenced diagram may begin with an at
sign, as its first and its last line do in PlantUML. -/
inductive WellFormed : WrittenBlock → Prop
  | fenced {language body : Text} (hlanguage : language ∈ languages) (hfence : .char '`' ∉ body)
      (hat : ∀ line ∈ PlantUml.trimmedLines body,
        .char '@' ∈ line → line.head? = some (.char '@')) :
      WellFormed (fenced language body)
  | bare {body : Text} (hfence : .char '`' ∉ body) (hat : .char '@' ∉ body) : WellFormed (bare body)

/-- The block as it is found.  White space in front of a fenced diagram is left out up to its
last line feed. -/
def found : WrittenBlock → Block
  | fenced language body => ⟨(fenced language body).text, (behindLastLineFeed? body).getD body⟩
  | bare body => ⟨(bare body).text, body⟩

end WrittenBlock

/-! ## Recognising a block -/

variable {body language opened rest t : Text} {c : CodePoint} {endMark : Text → Option Text}

theorem fencedHere?_cons (hc : c ≠ '`') (t : Text) : fencedHere? (c :: t) = none := by
  have hafter : Text.after? fence (c :: t) = none := by
    simp [fence, Text.after?, Ne.symm hc]
  simp only [fencedHere?, hafter]

theorem afterKeyword?_at (hc : c ≠ '@') (word t : Text) :
    Text.afterKeyword? (.char '@' :: word) (c :: t) = none := by
  rw [Text.afterKeyword?, if_neg]
  exact fun hletter => hc (Text.eq_of_isLetter (by decide) hletter)

theorem bareHere?_cons (hc : c ≠ '@') (t : Text) : bareHere? (c :: t) = none := by
  have hafter : Text.afterKeyword? "@startuml".toText (c :: t) = none := afterKeyword?_at hc _ t
  simp only [bareHere?, hafter]

theorem blockUpTo?_append (h : Text.cutWhere? endMark opened = some (body, rest)) (t : Text) :
    blockUpTo? endMark (t ++ rest) opened = some (t.length, ⟨t, body⟩) := by
  simp only [blockUpTo?, h, Option.map_some, List.length_append, Nat.add_sub_cancel_right,
    List.take_left]

theorem behindLastLineFeed?_append (hc : Text.isBlank c = false) (t rest : Text) :
    behindLastLineFeed? (t ++ c :: rest) =
      (behindLastLineFeed? t).map fun behind => behind ++ c :: rest := by
  induction t with
  | nil => simp [behindLastLineFeed?, hc]
  | cons d t ih =>
      rw [List.cons_append, behindLastLineFeed?, behindLastLineFeed?, ih]
      cases behindLastLineFeed? t with
      | some behind => cases Text.isBlank d <;> rfl
      | none =>
          by_cases hd : d = '\n'
          · cases Text.isBlank d <;> simp [hd]
          · cases Text.isBlank d <;> simp [hd]

theorem exists_of_behindLastLineFeed? {behind : Text} (h : behindLastLineFeed? t = some behind) :
    ∃ gap, t = gap ++ behind ∧ Text.isBlankText gap = true := by
  induction t with
  | nil => contradiction
  | cons c t ih =>
      rw [behindLastLineFeed?] at h
      split at h
      · rename_i hc
        split at h
        · rename_i found hfound
          obtain rfl := Option.some.inj h
          obtain ⟨gap, rfl, hgap⟩ := ih hfound
          refine ⟨c :: gap, rfl, ?_⟩
          rw [Text.isBlankText, List.all_cons, hc, Bool.true_and]
          exact hgap
        · split at h
          · obtain rfl := Option.some.inj h
            refine ⟨[c], rfl, ?_⟩
            rw [Text.isBlankText, List.all_cons, hc, List.all_nil, Bool.and_true]
          · contradiction
      · contradiction

/-- White space in front of a diagram is left out of it. -/
theorem exists_eq_append_getD (body : Text) :
    ∃ gap, body = gap ++ (behindLastLineFeed? body).getD body ∧ Text.isBlankText gap = true := by
  cases hbehind : behindLastLineFeed? body with
  | none => exact ⟨[], rfl, rfl⟩
  | some behind => exact exists_of_behindLastLineFeed? hbehind

/-- The diagram of a fenced block begins on a line of its own. -/
theorem behindLastLineFeed?_body (body rest : Text) :
    behindLastLineFeed? (.char '\n' :: (body ++ (fence ++ rest))) =
      some ((behindLastLineFeed? body).getD body ++ (fence ++ rest)) := by
  have hfence : fence ++ rest = .char '`' :: ("``".toText ++ rest) := rfl
  rw [behindLastLineFeed?, if_pos (by decide), hfence, behindLastLineFeed?_append (by decide)]
  cases behindLastLineFeed? body with
  | none => simp only [Option.map_none, if_true, Option.getD_none]
  | some behind => simp only [Option.map_some, Option.getD_some]

theorem cutWhere?_fence (hbody : .char '`' ∉ body) (rest : Text) :
    Text.cutWhere? (Text.after? fence) (body ++ (fence ++ rest)) = some (body, rest) := by
  refine Text.cutWhere?_append (fun c hc u => ?_) (Text.after?_eq_some_iff.mpr rfl)
  simp [fence, Text.after?, (ne_of_mem_of_not_mem hc hbody).symm]

theorem afterKeyword?_mark {word : Text} (hword : word.map CodePoint.toLower = word) (rest : Text) :
    Text.afterKeyword? word (word ++ rest) = some rest :=
  (Text.spells_of_map_toLower hword).afterKeyword?_append rest

theorem cutWhere?_enduml (hbody : .char '@' ∉ body) (rest : Text) :
    Text.cutWhere? (Text.afterKeyword? "@enduml".toText) (body ++ ("@enduml".toText ++ rest)) =
      some (body, rest) :=
  Text.cutWhere?_append (fun _ hc u => afterKeyword?_at (ne_of_mem_of_not_mem hc hbody) _ u)
    (afterKeyword?_mark (by decide) rest)

namespace WrittenBlock

variable {b : WrittenBlock}

theorem text_fenced (language body : Text) :
    (fenced language body).text = fence ++ (language ++ .char '\n' :: (body ++ fence)) := rfl

theorem text_bare (body : Text) :
    (bare body).text = "@startuml".toText ++ .char '\n' :: (body ++ "@enduml".toText) := rfl

theorem text_ne_nil (b : WrittenBlock) : b.text ≠ [] := by
  cases b with
  | fenced language body => exact List.cons_ne_nil _ _
  | bare body => exact List.cons_ne_nil _ _

theorem source_found (b : WrittenBlock) : b.found.source = b.text := by
  cases b <;> rfl

theorem strip_found (b : WrittenBlock) : Text.strip b.found.body = Text.strip b.body := by
  cases b with
  | bare body => rfl
  | fenced language body =>
      obtain ⟨gap, hbody, hgap⟩ := exists_eq_append_getD body
      change Text.strip ((behindLastLineFeed? body).getD body) = Text.strip body
      conv_rhs => rw [hbody]
      rw [Text.strip, Text.strip, Text.dropBlanks_append_of_blank hgap]

theorem isBlank_found (b : WrittenBlock) : b.found.isBlank = b.isBlank := by
  rw [Block.isBlank, b.strip_found, isBlank, Bool.eq_iff_iff, List.isEmpty_iff]
  exact Text.strip_eq_nil_iff

/-- What is found is converted as it is written. -/
theorem converted_found (b : WrittenBlock) : b.found.converted = b.converted := by
  rw [Block.converted, b.isBlank_found, b.source_found, b.strip_found, converted]

theorem WellFormed.fencedHere?_append (h : (WrittenBlock.fenced language body).WellFormed)
    (rest : Text) :
    fencedHere? ((WrittenBlock.fenced language body).text ++ rest) =
      some ((WrittenBlock.fenced language body).text.length,
        (WrittenBlock.fenced language body).found) := by
  obtain ⟨hlanguage, hfence, -⟩ := h
  let opened := (behindLastLineFeed? body).getD body
  have hapart : Text.AreApart languages := ⟨by decide, by decide⟩
  have hlower : ∀ language ∈ languages, language.map CodePoint.toLower = language := by decide
  have hafter : Text.after? fence ((WrittenBlock.fenced language body).text ++ rest) =
      some (language ++ .char '\n' :: (body ++ (fence ++ rest))) := by
    rw [Text.after?_eq_some_iff, text_fenced]
    simp only [List.append_assoc, List.cons_append]
  have hkeyword := (Text.spells_of_map_toLower (hlower language hlanguage)).keyword?_append hapart
    hlanguage (.char '\n' :: (body ++ (fence ++ rest)))
  -- The body has no fence in it, so the block ends at the one that was written.
  have hopened : .char '`' ∉ opened := by
    obtain ⟨gap, hbody, -⟩ := exists_eq_append_getD body
    rw [hbody] at hfence
    exact fun hmem => hfence (List.mem_append_right gap hmem)
  have hblock := blockUpTo?_append (cutWhere?_fence hopened rest)
    (WrittenBlock.fenced language body).text
  rw [languages] at hkeyword
  simp only [fencedHere?, hafter, hkeyword, behindLastLineFeed?_body]
  exact hblock

theorem WellFormed.bareHere?_append (h : (WrittenBlock.bare body).WellFormed) (rest : Text) :
    bareHere? ((WrittenBlock.bare body).text ++ rest) =
      some ((WrittenBlock.bare body).text.length, (WrittenBlock.bare body).found) := by
  have hat : .char '@' ∉ body := by
    cases h with
    | bare _ hat => exact hat
  let opened := body ++ ("@enduml".toText ++ rest)
  have htext :
      (WrittenBlock.bare body).text ++ rest = "@startuml".toText ++ .char '\n' :: opened := by
    rw [text_bare]
    simp only [List.append_assoc, List.cons_append, opened]
  have hopening : Text.afterKeyword? "@startuml".toText ((WrittenBlock.bare body).text ++ rest) =
      some (.char '\n' :: opened) := by
    rw [htext]
    exact afterKeyword?_mark (by decide) _
  have hend : Text.atWordEnd (.char '\n' :: opened) = true := rfl
  have hline : Text.cutAt? '\n' (.char '\n' :: opened) = some ([], opened) := rfl
  have hblock := blockUpTo?_append (cutWhere?_enduml hat rest) (WrittenBlock.bare body).text
  simp only [bareHere?, hopening, hend, if_true, hline]
  exact hblock

/-! ## Marks inside a block -/

theorem at_notMem_mermaidBlock {mermaid : Text} (h : .char '@' ∉ mermaid) :
    .char '@' ∉ mermaidBlock mermaid := by
  have hopening : .char '@' ∉ "```mermaid\n".toText := by decide
  have hclosing : .char '@' ∉ "\n```".toText := by decide
  unfold mermaidBlock
  rw [List.mem_append, List.mem_append, not_or, not_or]
  exact ⟨⟨hopening, h⟩, hclosing⟩

/-- Lines that begin with an at sign give nothing, so no at sign is left of a diagram. -/
theorem at_notMem_convert
    (hat : ∀ line ∈ PlantUml.trimmedLines body, .char '@' ∈ line → line.head? = some (.char '@')) :
    .char '@' ∉ PlantUml.convert (Text.strip body) := by
  refine PlantUml.notMem_convert (by decide) (by decide) fun line hline out hstep hmem => ?_
  have hinside : line ∈ PlantUml.trimmedLines body := Text.map_strip_lines_strip_subset body hline
  obtain ⟨behind, rfl⟩ := List.head?_eq_some_iff.mp (hat line hinside hmem)
  contradiction

/-- A fenced block has no at sign left behind the first pass. -/
theorem WellFormed.at_notMem_converted (h : (WrittenBlock.fenced language body).WellFormed) :
    .char '@' ∉ (WrittenBlock.fenced language body).converted := by
  obtain ⟨hlanguage, -, hat⟩ := h
  unfold converted
  split
  · rename_i hblank
    have hlanguages : ∀ language ∈ languages, .char '@' ∉ fence ++ (language ++ [.char '\n']) := by
      decide
    have hfront := hlanguages language hlanguage
    have hbody : .char '@' ∉ body := fun hmem =>
      absurd (List.all_eq_true.mp hblank '@' hmem) (by decide)
    have hfence : .char '@' ∉ fence := by decide
    simp only [List.mem_append, List.mem_singleton, not_or] at hfront
    simp only [text_fenced, List.mem_append, List.mem_cons, not_or]
    exact ⟨hfront.1, hfront.2.1, hfront.2.2, hbody, hfence⟩
  · exact at_notMem_mermaidBlock (at_notMem_convert hat)

theorem WellFormed.fence_notMem_text (h : (WrittenBlock.bare body).WellFormed) :
    .char '`' ∉ (WrittenBlock.bare body).text := by
  have hfence : .char '`' ∉ body := by
    cases h with
    | bare hfence _ => exact hfence
  have hopening : .char '`' ∉ "@startuml".toText := by decide
  have hclosing : .char '`' ∉ "@enduml".toText := by decide
  rw [text_bare, List.mem_append, List.mem_cons, List.mem_append, not_or, not_or, not_or]
  exact ⟨hopening, by decide, hfence, hclosing⟩

/-! ## The two passes -/

/-- How the first pass reads a block: the fenced ones are found. -/
def firstPieces : WrittenBlock → List (Text.Piece Block)
  | fenced language body => [.found (fenced language body).found]
  | bare body => (bare body).text.map .plain

/-- How the second pass reads what the first one leaves of a block: the bare ones are
found. -/
def secondPieces : WrittenBlock → List (Text.Piece Block)
  | fenced language body => (fenced language body).converted.map .plain
  | bare body => [.found (bare body).found]

theorem WellFormed.readsAs_firstPieces (h : b.WellFormed) :
    ReadsAs fencedHere? b.text b.firstPieces := by
  cases b with
  | fenced language body => exact Text.readsAs_found (text_ne_nil _) h.fencedHere?_append
  | bare body =>
      refine Text.readsAs_plain fun c hc u => fencedHere?_cons ?_ u
      rintro rfl
      exact h.fence_notMem_text hc

theorem WellFormed.readsAs_secondPieces (h : b.WellFormed) :
    ReadsAs bareHere? b.afterFirstPass b.secondPieces := by
  cases b with
  | fenced language body =>
      refine Text.readsAs_plain fun c hc u => bareHere?_cons ?_ u
      rintro rfl
      exact h.at_notMem_converted hc
  | bare body => exact Text.readsAs_found (text_ne_nil (.bare body)) h.bareHere?_append

theorem flatMap_firstPieces (b : WrittenBlock) :
    b.firstPieces.flatMap (Text.Piece.text Block.converted) = b.afterFirstPass := by
  cases b with
  | fenced language body =>
      rw [firstPieces, List.flatMap_singleton]
      exact converted_found _
  | bare body => exact Text.flatMap_text_plain _ _

theorem flatMap_secondPieces (b : WrittenBlock) :
    b.secondPieces.flatMap (Text.Piece.text Block.converted) = b.converted := by
  cases b with
  | fenced language body => exact Text.flatMap_text_plain _ _
  | bare body =>
      rw [secondPieces, List.flatMap_singleton]
      exact converted_found _

/-- Each block is found in one of the passes. -/
theorem filterMap_found?_pieces (b : WrittenBlock) :
    b.firstPieces.filterMap Text.Piece.found? ++ b.secondPieces.filterMap Text.Piece.found? =
      [b.found] := by
  cases b with
  | fenced language body =>
      rw [secondPieces, Text.filterMap_found?_plain]
      rfl
  | bare body =>
      rw [firstPieces, Text.filterMap_found?_plain]
      rfl

end WrittenBlock

/-! ## Documents as they are written -/

/-- A block and the prose behind it. -/
structure Section where
  block : WrittenBlock
  prose : Text

/-- Prose and blocks in turns. -/
structure WrittenDocument where
  opening : Text
  sections : List Section

/-- The prose has no mark of a block. -/
def IsProse (t : Text) : Prop :=
  .char '`' ∉ t ∧ .char '@' ∉ t
deriving Decidable

namespace WrittenDocument

/-- The document with a text in the place of each block. -/
def rendered (render : WrittenBlock → Text) (d : WrittenDocument) : Text :=
  d.opening ++ d.sections.flatMap fun s => render s.block ++ s.prose

/-- The document as it is written. -/
def text (d : WrittenDocument) : Text :=
  d.rendered WrittenBlock.text

/-- The document with its blocks converted and its prose kept. -/
def converted (d : WrittenDocument) : Text :=
  d.rendered WrittenBlock.converted

/-- How many blocks there are to convert. -/
def count (d : WrittenDocument) : Nat :=
  (d.sections.filter fun s => !s.block.isBlank).length

structure WellFormed (d : WrittenDocument) : Prop where
  opening : IsProse d.opening
  block : ∀ s ∈ d.sections, s.block.WellFormed
  prose : ∀ s ∈ d.sections, IsProse s.prose

variable {d : WrittenDocument} {here : Text → Option (Nat × Block)}
  {render out : WrittenBlock → Text} {ps : WrittenBlock → List (Text.Piece Block)}

/-- How a pass reads a document, where it reads each block in its own way. -/
def pieces (ps : WrittenBlock → List (Text.Piece Block)) (d : WrittenDocument) :
    List (Text.Piece Block) :=
  d.opening.map .plain ++ d.sections.flatMap fun s => ps s.block ++ s.prose.map .plain

theorem readsAs_rendered (hopening : ReadsAs here d.opening (d.opening.map .plain))
    (hprose : ∀ s ∈ d.sections, ReadsAs here s.prose (s.prose.map .plain))
    (hblock : ∀ s ∈ d.sections, ReadsAs here (render s.block) (ps s.block)) :
    ReadsAs here (d.rendered render) (d.pieces ps) :=
  hopening.append (ReadsAs.flatMap fun s hs => (hblock s hs).append (hprose s hs))

theorem flatMap_pieces (h : ∀ b, (ps b).flatMap (Text.Piece.text Block.converted) = out b)
    (d : WrittenDocument) :
    (d.pieces ps).flatMap (Text.Piece.text Block.converted) = d.rendered out := by
  rw [pieces, rendered, List.flatMap_append, Text.flatMap_text_plain, List.flatMap_assoc]
  refine congrArg _ (congrArg (List.flatMap · d.sections) (funext fun s => ?_))
  rw [List.flatMap_append, h, Text.flatMap_text_plain]

theorem filterMap_found?_pieces (ps : WrittenBlock → List (Text.Piece Block))
    (d : WrittenDocument) :
    (d.pieces ps).filterMap Text.Piece.found? =
      d.sections.flatMap fun s => (ps s.block).filterMap Text.Piece.found? := by
  rw [pieces, List.filterMap_append, Text.filterMap_found?_plain, List.filterMap_flatMap,
    List.nil_append]
  refine congrArg (List.flatMap · d.sections) (funext fun s => ?_)
  rw [List.filterMap_append, Text.filterMap_found?_plain, List.append_nil]

section

variable (h : d.WellFormed)
include h

theorem WellFormed.pieces_first :
    Text.pieces fencedHere? d.text = d.pieces WrittenBlock.firstPieces := by
  have hplain : ∀ {t}, IsProse t → ReadsAs fencedHere? t (t.map .plain) := fun {t} ht =>
    Text.readsAs_plain fun c hc u => fencedHere?_cons (ne_of_mem_of_not_mem hc ht.1) u
  exact (readsAs_rendered (hplain h.opening) (fun s hs => hplain (h.prose s hs))
    fun s hs => (h.block s hs).readsAs_firstPieces).pieces_eq

theorem WellFormed.pieces_second :
    Text.pieces bareHere? (d.rendered WrittenBlock.afterFirstPass) =
      d.pieces WrittenBlock.secondPieces := by
  have hplain : ∀ {t}, IsProse t → ReadsAs bareHere? t (t.map .plain) := fun {t} ht =>
    Text.readsAs_plain fun c hc u => bareHere?_cons (ne_of_mem_of_not_mem hc ht.2) u
  exact (readsAs_rendered (hplain h.opening) (fun s hs => hplain (h.prose s hs))
    fun s hs => (h.block s hs).readsAs_secondPieces).pieces_eq

/-- The first pass converts the fenced blocks and nothing else. -/
theorem WellFormed.convertBlocks_first :
    convertBlocks fencedHere? d.text = d.rendered WrittenBlock.afterFirstPass := by
  rw [convertBlocks, h.pieces_first]
  exact flatMap_pieces WrittenBlock.flatMap_firstPieces d

/-- The second pass converts the bare blocks and nothing else. -/
theorem WellFormed.convertBlocks_second :
    convertBlocks bareHere? (d.rendered WrittenBlock.afterFirstPass) = d.converted := by
  rw [convertBlocks, h.pieces_second]
  exact flatMap_pieces WrittenBlock.flatMap_secondPieces d

/-- The two passes together convert each block that is not blank once. -/
theorem WellFormed.convertedCount_add :
    convertedCount fencedHere? d.text +
      convertedCount bareHere? (d.rendered WrittenBlock.afterFirstPass) = d.count := by
  rw [convertedCount, convertedCount, blocks, blocks, h.pieces_first, h.pieces_second,
    filterMap_found?_pieces, filterMap_found?_pieces, count]
  induction d.sections with
  | nil => rfl
  | cons s sections ih =>
      have hboth := congrArg (fun bs => (bs.filter fun b => !b.isBlank).length)
        s.block.filterMap_found?_pieces
      have hblank := s.block.isBlank_found
      simp only [List.filter_append, List.length_append] at hboth
      simp only [List.flatMap_cons, List.filter_append, List.length_append, List.filter_cons,
        List.filter_nil, hblank] at hboth ⊢
      cases hs : s.block.isBlank with
      | true =>
          simp only [hs, Bool.not_true, Bool.false_eq_true, if_false, List.length_nil] at hboth ⊢
          omega
      | false =>
          simp only [hs, Bool.not_false, if_true, List.length_cons, List.length_nil] at hboth ⊢
          omega

theorem WellFormed.found_mem_blocks_fenced {s : Section} {language body : Text}
    (hs : s ∈ d.sections) (hblock : s.block = .fenced language body) :
    s.block.found ∈ blocks fencedHere? d.text := by
  rw [blocks, h.pieces_first, filterMap_found?_pieces]
  refine List.mem_flatMap.mpr ⟨s, hs, ?_⟩
  rw [hblock]
  exact List.mem_singleton_self _

/-- A bare block that is the first block is found in the document as it is written. -/
theorem WellFormed.found_mem_blocks_bare {s : Section} {sections : List Section} {body : Text}
    (hsections : d.sections = s :: sections) (hblock : s.block = .bare body) :
    s.block.found ∈ blocks bareHere? d.text := by
  let rest := s.prose ++ sections.flatMap fun s => s.block.text ++ s.prose
  have htext : d.text = d.opening ++ s.block.afterFirstPass ++ rest := by
    rw [text, rendered, hsections, List.flatMap_cons, hblock]
    simp only [List.append_assoc, rest]
    rfl
  have hopening : ReadsAs bareHere? d.opening (d.opening.map .plain) :=
    Text.readsAs_plain fun c hc u => bareHere?_cons (ne_of_mem_of_not_mem hc h.opening.2) u
  have hs : s.block.WellFormed := h.block s (by rw [hsections]; exact List.mem_cons_self)
  rw [blocks, htext, (hopening.append hs.readsAs_secondPieces) rest, hblock]
  refine List.mem_filterMap.mpr ⟨.found (WrittenBlock.bare body).found, ?_, rfl⟩
  exact List.mem_append_left _ (List.mem_append_right _ (List.mem_singleton_self _))

/-- A document with a block has a diagram. -/
theorem WellFormed.diagrams_ne_nil (hsections : d.sections ≠ []) : diagrams d.text ≠ [] := by
  obtain ⟨s, sections, hcons⟩ := List.exists_cons_of_ne_nil hsections
  have hs : s ∈ d.sections := by
    rw [hcons]
    exact List.mem_cons_self
  have hfound : s.block.found ∈ blocks bareHere? d.text ++ blocks fencedHere? d.text := by
    cases hblock : s.block with
    | fenced language body =>
        rw [← hblock]
        exact List.mem_append_right _ (h.found_mem_blocks_fenced hs hblock)
    | bare body =>
        rw [← hblock]
        exact List.mem_append_left _ (h.found_mem_blocks_bare hcons hblock)
  exact List.ne_nil_of_mem (List.mem_map_of_mem hfound)

end

end WrittenDocument

/-- A text of characters without carriage returns is read from its UTF-8. -/
theorem readLoosely_encode {t : Text} (ht : t.isScalar = true) (hreturn : .char '\r' ∉ t) :
    readLoosely (Utf8.encode t) = t := by
  rw [readLoosely, Utf8.decodeDropping_encode ht, Text.unifyLineEnds_eq_self hreturn]

/-- Converting a document that is read from a file, which is no PlantUML file, keeps its prose and
its blank blocks, puts a Mermaid block in the place of each other block, and reports how many
these are. -/
theorem convertText_written {d : WrittenDocument} {path : Path} {file : Bytes} (h : d.WellFormed)
    (hsections : d.sections ≠ []) (hpath : isPlantUml path = false)
    (hread : readLoosely file = d.text) :
    convertText path (readLoosely file) =
      ⟨d.converted,
        "  [convert] Converted ".toText ++ Text.ofNat d.count ++
          " PlantUML block(s) to Mermaid\n".toText⟩ := by
  have hdiagrams : (diagrams d.text).isEmpty = false :=
    List.isEmpty_eq_false_iff.mpr (h.diagrams_ne_nil hsections)
  rw [hread, convertText, hpath, if_neg (by decide), convertDocument, hdiagrams,
    if_neg (by decide), h.convertBlocks_first]
  simp only [h.convertBlocks_second, h.convertedCount_add]

/-- A fenced diagram with its own marks, a blank one, and a bare one. -/
def callNotes : WrittenDocument where
  opening := "# Calls\n".toText
  sections :=
    [⟨.fenced "plantuml".toText "@startuml\nWeb -> API : go\n@enduml\n".toText,
        "\nand back\n".toText⟩,
      ⟨.fenced "puml".toText " \n".toText, "\n".toText⟩,
      ⟨.bare "API --> Web : done\n".toText, "\n\nEnd.\n".toText⟩]

theorem convertText_written_callNotes :
    callNotes.WellFormed ∧ callNotes.sections ≠ [] ∧
      isPlantUml (Path.ofText "notes.md".toText) = false ∧
      readLoosely (Utf8.encode callNotes.text) = callNotes.text ∧
      convertText (Path.ofText "notes.md".toText) (readLoosely (Utf8.encode callNotes.text)) =
        ⟨"# Calls\n```mermaid\nsequenceDiagram\n    Web->>API: go\n```\nand back\n".toText ++
            "```puml\n \n```\n".toText ++
              "```mermaid\nsequenceDiagram\n    API-->>Web: done\n```\n\nEnd.\n".toText,
          "  [convert] Converted 2 PlantUML block(s) to Mermaid\n".toText⟩ := by
  have hform : callNotes.WellFormed :=
    { opening := by decide
      block := by
        rintro s (_ | ⟨_, _ | ⟨_, _ | ⟨_, ⟨⟩⟩⟩⟩)
        · exact .fenced (by decide) (by decide) (by decide)
        · exact .fenced (by decide) (by decide) (by decide)
        · exact .bare (by decide) (by decide)
      prose := by decide }
  have hread : readLoosely (Utf8.encode callNotes.text) = callNotes.text :=
    readLoosely_encode (by decide) (by decide)
  have hpath : isPlantUml (Path.ofText "notes.md".toText) = false := by decide
  have hconverted : callNotes.converted =
      "# Calls\n```mermaid\nsequenceDiagram\n    Web->>API: go\n```\nand back\n".toText ++
        "```puml\n \n```\n".toText ++
          "```mermaid\nsequenceDiagram\n    API-->>Web: done\n```\n\nEnd.\n".toText := by
    decide +kernel
  have hcount : callNotes.count = 2 := rfl
  have hwritten := convertText_written hform (List.cons_ne_nil _ _) hpath hread
  rw [hconverted, hcount] at hwritten
  exact ⟨hform, List.cons_ne_nil _ _, hpath, hread, hwritten⟩

end Lifeline.Document
