import Lifeline.Proofs.Mermaid.LineReader
import Lifeline.Proofs.PlantUml.FragmentLines

/-!
# Nesting of fragments

The converter reads line by line and keeps no account of open fragments.  What is well nested
stays so nevertheless, since opening lines and closing lines are kept alike.  Groups are the
exception: Mermaid has none, a line that opens one is not recognised and left out, and the
`end` that closes it is kept.
-/

namespace Lifeline.PlantUml

variable {line : Text} {ls : List Text} {opens p : Text → Bool}

/-! ## Well nested lines -/

/-- Lines are well nested: nowhere are more fragments closed than opened, and in the end all
are closed. -/
structure WellNested (opens : Text → Bool) (ls : List Text) : Prop where
  closed_le : ∀ front, front <+: ls → front.countP isEnd ≤ front.countP opens
  total : ls.countP isEnd = ls.countP opens

/-- It is enough to look at all beginnings of the lines. -/
theorem wellNested_iff : WellNested opens ls ↔
    (∀ front ∈ ls.inits, front.countP isEnd ≤ front.countP opens) ∧
      ls.countP isEnd = ls.countP opens := by
  simp only [List.mem_inits]
  exact ⟨fun h => ⟨h.closed_le, h.total⟩, fun h => ⟨h.1, h.2⟩⟩

instance (opens : Text → Bool) (ls : List Text) : Decidable (WellNested opens ls) :=
  decidable_of_iff _ wellNested_iff.symm

/-! ## The lines of a diagram -/

/-- The lines that the converter meets in the neutral mode: those outside comments, notes on
several lines and blocks of styling. -/
def drawnLines : Mode → List Text → List Text
  | _, [] => []
  | mode, line :: rest =>
      if mode = .neutral then line :: drawnLines (step mode line).1 rest
      else drawnLines (step mode line).1 rest

theorem drawnLines_subset (mode : Mode) (ls : List Text) : drawnLines mode ls ⊆ ls := by
  induction ls generalizing mode with
  | nil => exact List.Subset.refl []
  | cons line ls ih =>
      rw [drawnLines]
      split
      · exact List.cons_subset_cons line (ih _)
      · exact List.subset_cons_of_subset line (ih _)

/-- The Mermaid lines are those of the lines outside the regions that are skipped. -/
theorem filterMap_verdicts (mode : Mode) (ls : List Text) :
    (verdicts mode ls).filterMap Verdict.mermaid? =
      (drawnLines mode ls).filterMap fun line => (neutralStep line).2.mermaid? := by
  induction ls generalizing mode with
  | nil => rfl
  | cons line ls ih =>
      rw [verdicts_cons, drawnLines, List.filterMap_cons, ih]
      cases mode with
      | neutral =>
          rw [if_pos rfl, List.filterMap_cons]
          rfl
      | comment => rfl
      | note => rfl
      | styling more => rfl

/-- The lines of a converted diagram. -/
theorem trimmedLines_convert (code : Text) : trimmedLines (convert code) =
    header :: (drawnLines .neutral (trimmedLines code)).filterMap mermaidLine? := by
  rw [convert, trimmedLines_diagram newline_notMem_of_mem_verdicts, filterMap_verdicts,
    List.map_filterMap]
  rfl

/-- A condition is counted among the converted lines as often as another one among the lines
that give them, when it holds of what a line gives exactly when the other one holds of it. -/
theorem countP_filterMap_mermaidLine? {q : Text → Bool}
    (h : ∀ line ∈ ls, (mermaidLine? line).any p = q line) :
    (ls.filterMap mermaidLine?).countP p = ls.countP q := by
  rw [List.countP_filterMap]
  refine List.countP_congr fun line hline => ?_
  rw [← h line hline]
  cases mermaidLine? line with
  | none => rfl
  | some out => rfl

/-- No line opens a group and another fragment as well. -/
theorem not_opensFragment_group (h : opensFragment openers line = true) :
    opensFragment [groupWord] line = false := by
  have hgroup : groupWord ∉ openers := by decide
  have hname : Text.IsName groupWord :=
    isName_of_mem (by decide : ∀ word ∈ [groupWord], _) List.mem_cons_self
  rw [Bool.eq_false_iff]
  intro hboth
  rw [opensFragment, beginsWith_iff] at h hboth
  obtain ⟨word, hword, rest, hsplit, hrest⟩ := h
  obtain ⟨other, hother, rest', hsplit', hrest'⟩ := hboth
  obtain rfl := List.mem_singleton.mp hother
  rw [Bool.and_eq_true] at hrest hrest'
  have hfirst := congrArg (List.takeWhile Text.isWord) (hsplit.symm.trans hsplit')
  rw [takeWhile_isWord_append (isName_of_mem_openers hword) (atWordEnd_of_atKeywordEnd hrest.1),
    takeWhile_isWord_append hname (atWordEnd_of_atKeywordEnd hrest'.1)] at hfirst
  rw [hfirst] at hword
  exact hgroup hword

/-- Fragments are groups or have a keyword that Mermaid has as well. -/
theorem countP_opensFragment (ls : List Text) :
    ls.countP (opensFragment (groupWord :: openers)) =
      ls.countP (opensFragment openers) + ls.countP (opensFragment [groupWord]) := by
  induction ls with
  | nil => rfl
  | cons line ls ih =>
      have hline : opensFragment (groupWord :: openers) line =
          (opensFragment [groupWord] line || opensFragment openers line) := by
        simp only [opensFragment, beginsWith, List.any_cons, List.any_nil, Bool.or_false]
      rw [List.countP_cons, List.countP_cons, List.countP_cons, ih, hline]
      cases hopens : opensFragment openers line with
      | true =>
          rw [not_opensFragment_group hopens]
          simp only [Bool.false_or, if_true, Bool.false_eq_true, if_false]
          omega
      | false =>
          rw [Bool.or_false]
          simp only [Bool.false_eq_true, if_false]
          omega

/-- Every `end` is kept, and the header and the other lines do not become one. -/
theorem countP_isEnd_converted (hlines : ∀ line ∈ ls, .char '\n' ∉ line) :
    (header :: ls.filterMap mermaidLine?).countP isEnd = ls.countP isEnd := by
  rw [List.countP_cons_of_neg (by decide)]
  exact countP_filterMap_mermaidLine? fun line hline => any_isEnd_mermaidLine? (hlines line hline)

/-- Opening lines are kept but those of groups, and no other line becomes one. -/
theorem countP_opensMermaid_converted (hlines : ∀ line ∈ ls, .char '\n' ∉ line)
    (hread : ∀ line ∈ ls, isMisread line = false) :
    (header :: ls.filterMap mermaidLine?).countP opensMermaid =
      ls.countP (opensFragment openers) := by
  rw [List.countP_cons_of_neg (by decide)]
  refine countP_filterMap_mermaidLine? fun line hline => ?_
  rw [any_opensMermaid_mermaidLine? (hlines line hline), hread line hline, Bool.or_false]

/-- A diagram in which fragments are well nested, and no line is misread, is converted to one
that has an `end` too many for each group, and is well nested exactly when there is no group. -/
theorem wellNested_convert_iff {code : Text}
    (hnested : WellNested (opensFragment (groupWord :: openers))
      (drawnLines .neutral (trimmedLines code)))
    (hread : ∀ line ∈ drawnLines .neutral (trimmedLines code), isMisread line = false) :
    (trimmedLines (convert code)).countP isEnd =
        (trimmedLines (convert code)).countP opensMermaid +
          (drawnLines .neutral (trimmedLines code)).countP (opensFragment [groupWord]) ∧
      (∀ front, front <+: trimmedLines (convert code) → front.countP isEnd ≤
        front.countP opensMermaid +
          (drawnLines .neutral (trimmedLines code)).countP (opensFragment [groupWord])) ∧
      (WellNested opensMermaid (trimmedLines (convert code)) ↔
        ∀ line ∈ drawnLines .neutral (trimmedLines code),
          opensFragment [groupWord] line = false) := by
  rw [trimmedLines_convert]
  have hlines : ∀ line ∈ drawnLines .neutral (trimmedLines code), .char '\n' ∉ line :=
    fun line hline => newline_notMem_of_mem_trimmedLines (drawnLines_subset _ _ hline)
  generalize drawnLines .neutral (trimmedLines code) = drawn at hnested hread hlines ⊢
  have htotal : (header :: drawn.filterMap mermaidLine?).countP isEnd =
      (header :: drawn.filterMap mermaidLine?).countP opensMermaid +
        drawn.countP (opensFragment [groupWord]) := by
    rw [countP_isEnd_converted hlines, countP_opensMermaid_converted hlines hread, hnested.total,
      countP_opensFragment]
  have hfront : ∀ front, front <+: header :: drawn.filterMap mermaidLine? →
      front.countP isEnd ≤
        front.countP opensMermaid + drawn.countP (opensFragment [groupWord]) := by
    intro front hfront
    cases front with
    | nil => exact Nat.zero_le _
    | cons first behind =>
        -- What stands in front is converted from lines that stand in front.
        obtain ⟨rfl, hbehind⟩ := List.cons_prefix_cons.mp hfront
        obtain ⟨part, hpart, rfl⟩ := List.prefix_filterMap_iff.mp hbehind
        have hmem : ∀ line ∈ part, line ∈ drawn := fun _ hline => hpart.subset hline
        have hclosed := hnested.closed_le part hpart
        have hgroups := hpart.sublist.countP_le (p := opensFragment [groupWord])
        rw [countP_opensFragment] at hclosed
        rw [countP_isEnd_converted fun line hline => hlines line (hmem line hline),
          countP_opensMermaid_converted (fun line hline => hlines line (hmem line hline))
            fun line hline => hread line (hmem line hline)]
        omega
  refine ⟨htotal, hfront, fun h => ?_, fun h => ?_⟩
  · have hnone : drawn.countP (opensFragment [groupWord]) = 0 := by
      have hboth := h.total
      omega
    exact fun line hline => Bool.eq_false_iff.mpr (List.countP_eq_zero.mp hnone line hline)
  · have hnone : drawn.countP (opensFragment [groupWord]) = 0 :=
      List.countP_eq_zero.mpr fun line hline => by rw [h line hline]; exact Bool.false_ne_true
    rw [hnone, Nat.add_zero] at htotal
    exact ⟨fun front hpart => by simpa [hnone] using hfront front hpart, htotal⟩

/-- A coloured alternative in a loop, and a note on several lines with an `end` inside. -/
def alternativeInLoop : Text :=
  "loop twice\n alt#gold A is up\n A -> B : x\nnote over A\nend\nend note\n else\n end\nend".toText

theorem wellNested_convert_iff_alternativeInLoop :
    WellNested (opensFragment (groupWord :: openers))
        (drawnLines .neutral (trimmedLines alternativeInLoop)) ∧
      (∀ line ∈ drawnLines .neutral (trimmedLines alternativeInLoop), isMisread line = false) ∧
      WellNested opensMermaid (trimmedLines (convert alternativeInLoop)) := by
  have hnested : WellNested (opensFragment (groupWord :: openers))
      (drawnLines .neutral (trimmedLines alternativeInLoop)) := by decide +kernel
  have hread : ∀ line ∈ drawnLines .neutral (trimmedLines alternativeInLoop),
      isMisread line = false := by decide +kernel
  refine ⟨hnested, hread, (wellNested_convert_iff hnested hread).2.2.mpr ?_⟩
  decide +kernel

/-- Of a group only the end is left. -/
theorem not_wellNested_convert_group :
    WellNested (opensFragment (groupWord :: openers))
        (drawnLines .neutral (trimmedLines "group G\nA -> B : x\nend".toText)) ∧
      ¬ WellNested opensMermaid
        (trimmedLines (convert "group G\nA -> B : x\nend".toText)) := by
  decide +kernel

end Lifeline.PlantUml
