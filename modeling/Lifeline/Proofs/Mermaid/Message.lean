import Lifeline.Mermaid.Outline
import Lifeline.Proofs.Text.Matching
import Lifeline.Proofs.Text.Names
import Lifeline.Proofs.Text.Pieces

/-!
# Message lines of Mermaid

A line that is no declaration is a message exactly when an arrow stands in front of
its first colon with something on both sides of it, wherever in the line that is.
Between two names there is one arrow only, so the line is cut there.
-/

namespace Lifeline.Mermaid

variable {line t front behind label name : Text} {c : CodePoint}

/-- An arrow stands in front of the first colon, with something on both sides. -/
def JoinsByArrow (line : Text) : Prop :=
  ∃ front arrow behind label, arrow ∈ arrows ∧ front ≠ [] ∧ behind ≠ [] ∧
    .char ':' ∉ front ∧ .char ':' ∉ behind ∧
      line = front ++ (arrow ++ (behind ++ .char ':' :: label))

/-! ## The target -/

theorem targetAndText?_append (hne : front ≠ []) (hcolon : .char ':' ∉ front) (label : Text) :
    targetAndText? (front ++ .char ':' :: label) = some (Text.strip front, Text.strip label) := by
  have hcut : Text.cutAt? ':' (front ++ .char ':' :: label) = some (front, label) :=
    Text.cutAt?_eq_some_iff.mpr ⟨rfl, hcolon⟩
  obtain ⟨c, front, rfl⟩ := List.exists_cons_of_ne_nil hne
  rw [targetAndText?, hcut]

theorem exists_of_targetAndText? {answer : Text × Text} (h : targetAndText? t = some answer) :
    ∃ front label, t = front ++ CodePoint.char ':' :: label ∧ front ≠ [] ∧ .char ':' ∉ front := by
  unfold targetAndText? at h
  split at h
  · rename_i c front label hcut
    obtain ⟨ht, hcolon⟩ := Text.cutAt?_eq_some_iff.mp hcut
    exact ⟨c :: front, label, ht, List.cons_ne_nil _ _, hcolon⟩
  · contradiction

theorem exists_behindArrow? (hne : front ≠ []) (hcolon : .char ':' ∉ front) (label : Text) :
    ∃ answer, behindArrow? (front ++ .char ':' :: label) = some answer := by
  have hwhole := targetAndText?_append hne hcolon label
  obtain ⟨c, front, rfl⟩ := List.exists_cons_of_ne_nil hne
  rw [List.cons_append] at hwhole ⊢
  rw [behindArrow?]
  split
  · split
    · exact ⟨_, rfl⟩
    · exact ⟨_, hwhole⟩
  · exact ⟨_, hwhole⟩

theorem exists_of_behindArrow? {answer : Text × Text} (h : behindArrow? t = some answer) :
    ∃ front label, t = front ++ CodePoint.char ':' :: label ∧ front ≠ [] ∧ .char ':' ∉ front := by
  unfold behindArrow? at h
  split at h
  · contradiction
  · rename_i c rest
    split at h
    · rename_i hsign
      split at h
      · rename_i hrest
        obtain ⟨front, label, rfl, -, hcolon⟩ := exists_of_targetAndText? hrest
        refine ⟨c :: front, label, rfl, List.cons_ne_nil _ _, ?_⟩
        rw [List.mem_cons, not_or]
        refine ⟨?_, hcolon⟩
        rintro rfl
        exact absurd hsign (by decide)
      · exact exists_of_targetAndText? h
    · exact exists_of_targetAndText? h

/-! ## The arrow -/

theorem exists_cons_of_mem_arrows {arrow : Text} (h : arrow ∈ arrows) :
    ∃ tail, arrow = .char '-' :: tail := by
  have hall : ∀ arrow ∈ arrows, arrow.head? = some (.char '-') := by decide
  exact List.head?_eq_some_iff.mp (hall arrow h)

theorem dropBlanks_arrow {arrow : Text} (h : arrow ∈ arrows) (t : Text) :
    Text.dropBlanks (arrow ++ t) = arrow ++ t := by
  obtain ⟨tail, rfl⟩ := exists_cons_of_mem_arrows h
  exact Text.dropBlanks_cons_of_not_isBlank _ (by decide)

theorem exists_behindSource? {arrow : Text} (harrow : arrow ∈ arrows) (hne : behind ≠ [])
    (hcolon : .char ':' ∉ behind) (label : Text) :
    ∃ answer, behindSource? (arrow ++ (behind ++ .char ':' :: label)) = some answer := by
  obtain ⟨answer, hanswer⟩ := exists_behindArrow? hne hcolon label
  have hafter : Text.after? arrow (arrow ++ (behind ++ .char ':' :: label)) =
      some (behind ++ .char ':' :: label) := Text.after?_eq_some_iff.mpr rfl
  -- Another arrow may come first and give another answer; that there is one is enough.
  rw [← Option.isSome_iff_exists, behindSource?, dropBlanks_arrow harrow,
    List.findSome?_isSome_iff]
  refine ⟨arrow, harrow, ?_⟩
  simp only [hafter, hanswer, Option.map_some, Option.isSome_some]

theorem exists_of_behindSource? {answer : Text × Text × Text} (h : behindSource? t = some answer) :
    ∃ gap arrow behind label, arrow ∈ arrows ∧ behind ≠ [] ∧ .char ':' ∉ gap ∧ .char ':' ∉ behind ∧
      t = gap ++ (arrow ++ (behind ++ .char ':' :: label)) := by
  obtain ⟨arrow, harrow, hread⟩ := List.exists_of_findSome?_eq_some h
  cases hafter : Text.after? arrow (Text.dropBlanks t) with
  | none =>
      rw [hafter] at hread
      contradiction
  | some rest =>
      rw [hafter] at hread
      obtain ⟨found, hfound, -⟩ := Option.map_eq_some_iff.mp hread
      obtain ⟨behind, label, rfl, hne, hcolon⟩ := exists_of_behindArrow? hfound
      -- The white space in front of the arrow belongs to no name.
      refine ⟨t.takeWhile Text.isBlank, arrow, behind, label, harrow, hne, ?_, hcolon, ?_⟩
      · intro hmem
        exact absurd (List.mem_takeWhile_imp hmem) (by decide)
      · rw [← Text.after?_eq_some_iff.mp hafter]
        exact List.takeWhile_append_dropWhile.symm

/-! ## Messages -/

/-- A line has the form of a message exactly when an arrow joins two parts of it in
front of its first colon. -/
theorem exists_message?_iff : (∃ m, message? line = some m) ↔ JoinsByArrow line := by
  constructor
  · rintro ⟨m, hm⟩
    obtain ⟨⟨source, answer⟩, hfewest, -⟩ := Option.map_eq_some_iff.mp hm
    obtain ⟨rest, rfl, hbehind, hne, hall⟩ := Text.fewestSome_eq_some hfewest
    obtain ⟨gap, arrow, behind, label, harrow, hbehindNe, hgap, hcolon, rfl⟩ :=
      exists_of_behindSource? hbehind
    refine ⟨source ++ gap, arrow, behind, label, harrow, ?_, hbehindNe, ?_, hcolon, ?_⟩
    · exact fun hnil => hne (List.append_eq_nil_iff.mp hnil).1
    · rw [List.mem_append, not_or]
      refine ⟨fun hmem => ?_, hgap⟩
      exact absurd (List.all_eq_true.mp hall ':' hmem) (by decide)
    · rw [List.append_assoc]
  · rintro ⟨front, arrow, behind, label, harrow, hne, hbehindNe, hfront, hcolon, rfl⟩
    obtain ⟨answer, hanswer⟩ := exists_behindSource? harrow hbehindNe hcolon label
    -- The search for the source stops at a colon, and there is none.
    have hclass : ∀ c ∈ front, decide (c ≠ ':') = true := by
      intro c hc
      rw [decide_eq_true_eq]
      rintro rfl
      exact hfront hc
    obtain ⟨found, hfound⟩ := Text.exists_fewestSome hne hclass hanswer
    rw [message?, hfound]
    exact ⟨_, rfl⟩

theorem message?_eq_none_iff : message? line = none ↔ ¬ JoinsByArrow line := by
  rw [← exists_message?_iff, Option.eq_none_iff_forall_ne_some]
  exact not_exists.symm

/-! ## Names at the beginning of a line -/

theorem afterBlanks?_append_cons (hname : ∀ b ∈ name, Text.isWord b = true)
    (hc : Text.isBlank c = false) (rest : Text) : Text.afterBlanks? (name ++ c :: rest) = none := by
  cases name with
  | nil => exact Text.afterBlanks?_cons_of_not_isBlank rest hc
  | cons b name =>
      exact Text.afterBlanks?_cons_of_not_isBlank _
        (Text.isBlank_of_isWord (hname b List.mem_cons_self))

theorem afterBlanks?_of_after? {word behind : Text} (hname : Text.IsName name)
    (hword : c ∉ word) (hc : Text.isBlank c = false) (rest : Text)
    (h : Text.after? word (name ++ c :: rest) = some behind) : Text.afterBlanks? behind = none := by
  rw [Text.after?_append hword, Option.map_eq_some_iff] at h
  obtain ⟨left, hleft, rfl⟩ := h
  refine afterBlanks?_append_cons (fun b hb => hname.isWord b ?_) hc rest
  rw [Text.after?_eq_some_iff.mp hleft]
  exact List.mem_append_right _ hb

/-- A name that a hyphen follows declares nothing, whatever word it is. -/
theorem declaration?_append (hname : Text.IsName name) (rest : Text) :
    declaration? (name ++ .char '-' :: rest) = none := by
  have hnone : ∀ {word behind : Text}, .char '-' ∉ word →
      Text.after? word (name ++ .char '-' :: rest) = some behind →
        Text.afterBlanks? behind = none :=
    fun hword h => afterBlanks?_of_after? hname hword (by decide) rest h
  have hhere : declarationHere? (name ++ .char '-' :: rest) = none := by
    unfold declarationHere?
    cases hparticipant : Text.after? "participant".toText (name ++ .char '-' :: rest) with
    | some behind => simp only [hnone (by decide) hparticipant]
    | none =>
        cases hactor : Text.after? "actor".toText (name ++ .char '-' :: rest) with
        | some behind => simp only [Option.map_some, hnone (by decide) hactor]
        | none => rfl
  unfold declaration?
  cases hcreate : Text.after? "create".toText (name ++ .char '-' :: rest) with
  | none => exact hhere
  | some behind => simp only [hnone (by decide) hcreate]

theorem behindSource?_cons (hc : Text.isWord c = true) (t : Text) :
    behindSource? (c :: t) = none := by
  have hdash : c ≠ '-' := Text.ne_of_isWord hc (by decide)
  rw [behindSource?, Text.dropBlanks_cons_of_not_isBlank t (Text.isBlank_of_isWord hc),
    List.findSome?_eq_none_iff]
  intro arrow harrow
  obtain ⟨tail, rfl⟩ := exists_cons_of_mem_arrows harrow
  rw [Text.after?, if_neg (Ne.symm hdash)]

/-- A name in front of an arrow is the source of the message. -/
theorem message?_append {arrow target text rest : Text} (hname : Text.IsName name)
    (hbehind : behindSource? rest = some (arrow, target, text)) :
    message? (name ++ rest) =
      some ⟨name, target, text, (Text.after? "--".toText arrow).isSome⟩ := by
  have hclass : ∀ c ∈ name, decide (c ≠ ':') = true := by
    intro c hc
    rw [decide_eq_true_eq]
    exact Text.ne_of_isWord (hname.isWord c hc) (by decide)
  have hfewest := Text.fewestSome_append hname.ne_nil hclass
    (fun c hc => behindSource?_cons (hname.isWord c hc)) hbehind
  simp only [message?, hfewest, Option.map_some, Text.strip_of_trim hname.trim]

end Lifeline.Mermaid
