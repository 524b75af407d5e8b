import Lifeline.PlantUml.Message
import Lifeline.Proofs.PlantUml.Arrow
import Lifeline.Proofs.Text.Matching
import Lifeline.Proofs.Text.Names

/-!
# Message lines as they are written

A message line is written from two names, an arrow, at most one mark of activation,
perhaps a label, and white space between them.  Such a line is read as a message of
just these parts, and the Mermaid line puts them in the order of the message.
-/

namespace Lifeline.PlantUml

variable {α : Type} {next : Text → Option α} {a : α} {c : CodePoint} {name gap t rest : Text}

/-- The mark of an activation. -/
def Activation.mark : Activation → Text
  | .none => []
  | .start => ['+', '+']
  | .stop => ['-', '-']

/-- The sign of an activation in Mermaid. -/
def Activation.sign : Activation → Text
  | .none => []
  | .start => ['+']
  | .stop => ['-']

/-- A message line, by its parts. -/
structure WrittenMessage where
  left : Text
  right : Text
  arrow : WrittenArrow
  /-- The mark behind the arrow. -/
  early : Activation
  /-- The mark behind the right name. -/
  late : Activation
  beforeArrow : Text
  behindArrow : Text
  beforeMark : Text
  beforeLabel : Text
  label? : Option Text

namespace WrittenMessage

/-- Names are names, white space is white space, and the label is on the same line.
A mark stands behind an arrow that points right, or behind white space, and only one
does. -/
structure WellFormed (m : WrittenMessage) : Prop where
  left : Text.IsName m.left
  right : Text.IsName m.right
  beforeArrow : Text.isBlankText m.beforeArrow = true
  behindArrow : Text.isBlankText m.behindArrow = true
  beforeMark : Text.isBlankText m.beforeMark = true
  beforeLabel : Text.isBlankText m.beforeLabel = true
  early : m.early ≠ .none → m.arrow.pointsLeft = false ∧ m.late = .none
  late : m.late ≠ .none → m.beforeMark ≠ []
  label : ∀ t, m.label? = some t → .char '\n' ∉ t

/-- The label with its colon, or nothing. -/
def labelText (m : WrittenMessage) : Text :=
  match m.label? with
  | none => []
  | some t => .char ':' :: t

/-- What stands behind the right name. -/
def ending (m : WrittenMessage) : Text :=
  m.beforeMark ++ (m.late.mark ++ (m.beforeLabel ++ m.labelText))

/-- What stands behind the arrow. -/
def behind (m : WrittenMessage) : Text :=
  m.early.mark ++ (m.behindArrow ++ (m.right ++ m.ending))

/-- A message line as it is written. -/
def text (m : WrittenMessage) : Text :=
  m.left ++ (m.beforeArrow ++ (m.arrow.text ++ m.behind))

/-- The name that the message comes from. -/
def source (m : WrittenMessage) : Text :=
  if m.arrow.pointsLeft then m.right else m.left

/-- The name that the message goes to. -/
def target (m : WrittenMessage) : Text :=
  if m.arrow.pointsLeft then m.left else m.right

/-- The activation of the message. -/
def activation (m : WrittenMessage) : Activation :=
  if m.early = .none then m.late else m.early

/-- The trimmed label, empty when there is none. -/
def label (m : WrittenMessage) : Text :=
  Text.strip (m.label?.getD [])

/-- The Mermaid line of the message: its source, an arrow to the right with the sign
of the activation, its target, and the label behind a colon that always stands. -/
def inMermaid (m : WrittenMessage) : Text :=
  m.source ++ ((if m.arrow.dashed then "-->>".toText else "->>".toText) ++ (m.activation.sign ++
    (m.target ++ if m.label.isEmpty then [.char ':'] else ": ".toText ++ m.label)))

end WrittenMessage

namespace Message

/-! ## Labels and marks -/

theorem label?_of_blank (hgap : Text.isBlankText gap = true) : label? gap = some [] := by
  have hdrop : Text.dropBlanks gap = [] := by
    rw [← List.append_nil gap, Text.dropBlanks_append_of_blank hgap]
    rfl
  rw [label?, hdrop]

theorem label?_append (hgap : Text.isBlankText gap = true) (ht : .char '\n' ∉ t) :
    label? (gap ++ .char ':' :: t) = some (Text.strip t) := by
  have hdrop : Text.dropBlanks (gap ++ .char ':' :: t) = .char ':' :: t := by
    rw [Text.dropBlanks_append_of_blank hgap, Text.dropBlanks_cons_of_not_isBlank _ (by decide)]
  have hline : .char '\n' ∉ Text.dropBlanks t :=
    fun hmem => ht ((List.dropWhile_sublist Text.isBlank).subset hmem)
  simp only [label?, hdrop, Text.line?_eq_some_self hline, Option.map_some, Text.strip_dropBlanks]

theorem label?_cons (hc : Text.isWord c = true) (t : Text) : label? (c :: t) = none := by
  have hcolon : c ≠ ':' := Text.ne_of_isWord hc (by decide)
  simp [label?, Text.dropBlanks_cons_of_not_isBlank t (Text.isBlank_of_isWord hc), hcolon]

theorem ending?_cons (hc : Text.isWord c = true) (t : Text) : ending? (c :: t) = none := by
  simp only [ending?, label?_cons hc,
    Text.afterBlanks?_cons_of_not_isBlank t (Text.isBlank_of_isWord hc), Option.map_none]

/-! ## Names -/

/-- A name is read whole when nothing that follows a name begins with a word character. -/
theorem name?_append (hname : Text.IsName name)
    (hskip : ∀ c, Text.isWord c = true → ∀ u, next (c :: u) = none) (hnext : next rest = some a) :
    name? next (name ++ rest) = some (name, a) := by
  have hclass : ∀ c ∈ name, isNameChar c = true := by
    intro c hc
    have hquote : c ≠ '"' := Text.ne_of_isWord (hname.isWord c hc) (by decide)
    have hcolon : c ≠ ':' := Text.ne_of_isWord (hname.isWord c hc) (by decide)
    simp [isNameChar, hquote, hcolon]
  have hquoted : Text.quoted? (name ++ rest) = none := by
    obtain ⟨c, tail, rfl⟩ := List.exists_cons_of_ne_nil hname.ne_nil
    exact Text.quoted?_cons (Text.ne_of_isWord (hname.isWord c List.mem_cons_self) (by decide)) _
  have hfewest := Text.fewestSome_append hname.ne_nil hclass
    (fun c hc => hskip c (hname.isWord c hc)) hnext
  simp only [name?, hquoted, hfewest, Option.map_some, Text.strip_of_trim hname.trim]

end Message

theorem activation?_mark {activation : Activation} (h : activation ≠ .none) (t : Text) :
    activation? (activation.mark ++ t) = some (activation, t) := by
  cases activation with
  | none => contradiction
  | start => rfl
  | stop => rfl

theorem dropBlanks_mark {activation : Activation} (h : activation ≠ .none) (t : Text) :
    Text.dropBlanks (activation.mark ++ t) = activation.mark ++ t := by
  cases activation with
  | none => contradiction
  | start => rfl
  | stop => rfl

namespace WrittenMessage

variable {m : WrittenMessage}

theorem activation?_labelText (m : WrittenMessage) : activation? m.labelText = none := by
  unfold labelText
  cases m.label? <;> rfl

theorem afterBlanks?_labelText (m : WrittenMessage) : Text.afterBlanks? m.labelText = none := by
  unfold labelText
  cases m.label? with
  | none => rfl
  | some t => exact Text.afterBlanks?_cons_of_not_isBlank t (by decide)

theorem dropBlanks_labelText (m : WrittenMessage) : Text.dropBlanks m.labelText = m.labelText := by
  unfold labelText
  cases m.label? with
  | none => rfl
  | some t => exact Text.dropBlanks_cons_of_not_isBlank t (by decide)

theorem WellFormed.label?_labelText (h : m.WellFormed) (hgap : Text.isBlankText gap = true) :
    Message.label? (gap ++ m.labelText) = some m.label := by
  unfold labelText WrittenMessage.label
  cases hlabel : m.label? with
  | none =>
      rw [List.append_nil]
      exact Message.label?_of_blank hgap
  | some t => exact Message.label?_append hgap (h.label t hlabel)

theorem ending?_unmarked (hlabel : Message.label? (gap ++ m.labelText) = some m.label)
    (hgap : Text.isBlankText gap = true) :
    Message.ending? (gap ++ m.labelText) = some (.none, m.label) := by
  have hblanks : Text.afterBlanks? (gap ++ m.labelText) = none ∨
      Text.afterBlanks? (gap ++ m.labelText) = some m.labelText := by
    by_cases hnil : gap = []
    · left
      rw [hnil, List.nil_append, afterBlanks?_labelText]
    · right
      rw [Text.afterBlanks?_append hgap hnil, dropBlanks_labelText]
  rw [Message.ending?, hlabel]
  rcases hblanks with hnone | hsome
  · simp only [hnone, Option.map_some]
  · simp only [hsome, activation?_labelText, Option.map_some]

/-- What stands behind the right name is read as its mark and the label. -/
theorem WellFormed.ending?_ending (h : m.WellFormed) :
    Message.ending? m.ending = some (m.late, m.label) := by
  -- Without a mark the two gaps in front of the label are one.
  by_cases hlate : m.late = .none
  · have hgap : Text.isBlankText (m.beforeMark ++ m.beforeLabel) = true := by
      rw [Text.isBlankText, List.all_append, Bool.and_eq_true]
      exact ⟨h.beforeMark, h.beforeLabel⟩
    have hending : m.ending = m.beforeMark ++ m.beforeLabel ++ m.labelText := by
      rw [ending, hlate, Activation.mark, List.nil_append, List.append_assoc]
    rw [hending, hlate]
    exact ending?_unmarked (h.label?_labelText hgap) hgap
  · have hafter : Text.afterBlanks? m.ending =
        some (m.late.mark ++ (m.beforeLabel ++ m.labelText)) := by
      rw [ending, Text.afterBlanks?_append h.beforeMark (h.late hlate), dropBlanks_mark hlate]
    simp only [Message.ending?, hafter, activation?_mark hlate, h.label?_labelText h.beforeLabel,
      Option.map_some]

theorem WellFormed.target?_behindArrow (h : m.WellFormed) :
    Message.target? (m.behindArrow ++ (m.right ++ m.ending)) = some (m.right, m.late, m.label) := by
  have hname := Message.name?_append h.right (fun _ hc => Message.ending?_cons hc) h.ending?_ending
  refine Text.most_append (List.all_eq_true.mp h.behindArrow) ?_ hname
  intro c hc
  obtain ⟨d, tail, hcons⟩ := List.exists_cons_of_ne_nil h.right.ne_nil
  rw [hcons] at hc
  obtain rfl : d = c := Option.some.inj hc
  exact Text.isBlank_of_isWord (h.right.isWord d (by rw [hcons]; exact List.mem_cons_self))

/-! ## The arrow -/

/-- What stands behind an arrow without a mark begins with white space or a name. -/
theorem WellFormed.head?_behindArrow (h : m.WellFormed)
    (hc : (m.behindArrow ++ (m.right ++ m.ending)).head? = some c) :
    Text.isBlank c = true ∨ Text.isWord c = true := by
  cases hgap : m.behindArrow with
  | nil =>
      obtain ⟨d, tail, hcons⟩ := List.exists_cons_of_ne_nil h.right.ne_nil
      rw [hgap, hcons] at hc
      obtain rfl : d = c := Option.some.inj hc
      exact Or.inr (h.right.isWord d (by rw [hcons]; exact List.mem_cons_self))
  | cons b gap =>
      rw [hgap] at hc
      obtain rfl : b = c := Option.some.inj hc
      exact Or.inl (List.all_eq_true.mp h.behindArrow b (by rw [hgap]; exact List.mem_cons_self))

theorem ne_of_isBlank_or_isWord {d : CodePoint} (hc : Text.isBlank c = true ∨ Text.isWord c = true)
    (hblank : Text.isBlank d = false) (hword : Text.isWord d = false) : c ≠ d := by
  rintro rfl
  rcases hc with hc | hc
  · rw [hc] at hblank
    contradiction
  · rw [hc] at hword
    contradiction

theorem WellFormed.endsBefore_behind (h : m.WellFormed) : m.arrow.EndsBefore m.behind := by
  intro c hc
  unfold behind at hc
  cases hearly : m.early with
  | none =>
      rw [hearly] at hc
      have hkind := h.head?_behindArrow hc
      exact ⟨ne_of_isBlank_or_isWord hkind (by decide) (by decide), fun _ =>
        ⟨ne_of_isBlank_or_isWord hkind (by decide) (by decide),
          ne_of_isBlank_or_isWord hkind (by decide) (by decide)⟩⟩
  | start =>
      obtain ⟨hpoints, -⟩ := h.early (by rw [hearly]; decide)
      rw [hearly] at hc
      obtain rfl : '+' = c := Option.some.inj hc
      exact ⟨by decide, fun hleft => absurd hleft (by rw [hpoints]; decide)⟩
  | stop =>
      obtain ⟨hpoints, -⟩ := h.early (by rw [hearly]; decide)
      rw [hearly] at hc
      obtain rfl : '-' = c := Option.some.inj hc
      exact ⟨by decide, fun hleft => absurd hleft (by rw [hpoints]; decide)⟩

theorem WellFormed.head?_activations (h : m.WellFormed) :
    (activations m.behind).head? = some (m.early, m.behindArrow ++ (m.right ++ m.ending)) := by
  unfold behind activations
  by_cases hearly : m.early = .none
  · have hnone : activation? (m.behindArrow ++ (m.right ++ m.ending)) = none := by
      unfold activation?
      split
      · rename_i hcons
        have hkind := h.head?_behindArrow (c := '+') (by rw [hcons]; rfl)
        exact absurd rfl (ne_of_isBlank_or_isWord hkind (by decide) (by decide))
      · rename_i hcons
        have hkind := h.head?_behindArrow (c := '-') (by rw [hcons]; rfl)
        exact absurd rfl (ne_of_isBlank_or_isWord hkind (by decide) (by decide))
      · rfl
    rw [hearly, Activation.mark, List.nil_append, hnone]
    rfl
  · rw [activation?_mark hearly]
    rfl

theorem WellFormed.arrow?_eq (h : m.WellFormed) :
    Message.arrow? (m.beforeArrow ++ (m.arrow.text ++ m.behind)) =
      some (m.arrow.text, m.activation, m.right, m.label) := by
  have hdrop : Text.dropBlanks (m.beforeArrow ++ (m.arrow.text ++ m.behind)) =
      m.arrow.text ++ m.behind := by
    obtain ⟨c, hhead, hc⟩ := m.arrow.trim_text.head
    obtain ⟨tail, htext⟩ := List.head?_eq_some_iff.mp hhead
    rw [Text.dropBlanks_append_of_blank h.beforeArrow, htext, List.cons_append,
      Text.dropBlanks_cons_of_not_isBlank _ hc]
  -- The first way to read the arrow and the first way to read its mark are the right
  -- ones, so no other is tried.
  obtain ⟨moreArrows, harrows⟩ :=
    List.head?_eq_some_iff.mp (m.arrow.head?_arrows h.endsBefore_behind)
  obtain ⟨moreMarks, hmarks⟩ := List.head?_eq_some_iff.mp h.head?_activations
  simp only [Message.arrow?, hdrop, harrows, List.findSome?_cons, hmarks, h.target?_behindArrow,
    Option.map_some]
  rfl

theorem arrow?_cons (hc : Text.isWord c = true) (t : Text) : Message.arrow? (c :: t) = none := by
  have hleft : c ≠ '<' := Text.ne_of_isWord hc (by decide)
  have hdash : c ≠ '-' := Text.ne_of_isWord hc (by decide)
  have hends : arrowEnds (c :: t) = [] := by
    unfold arrowEnds
    split
    · rename_i hcons
      exact absurd (List.cons.inj hcons).1 hleft
    · have hshafts : shafts (c :: t) = [] := by
        unfold shafts
        split
        · rename_i hcons
          exact absurd (List.cons.inj hcons).1 hdash
        · rfl
      rw [hshafts]
      rfl
  rw [Message.arrow?, Text.dropBlanks_cons_of_not_isBlank t (Text.isBlank_of_isWord hc), arrows,
    hends]
  rfl

/-! ## The message -/

/-- A message line is read as a message of its parts. -/
theorem WellFormed.ofLine?_text (h : m.WellFormed) :
    Message.ofLine? m.text = some ⟨m.left, m.arrow.text, m.activation, m.right, m.label⟩ := by
  have hname := Message.name?_append h.left (fun _ hc => arrow?_cons hc) h.arrow?_eq
  have hleft : m.left.isEmpty = false := by simpa using h.left.ne_nil
  have hright : m.right.isEmpty = false := by simpa using h.right.ne_nil
  simp only [Message.ofLine?, text, hname, hleft, hright, Bool.or_self, Bool.false_eq_true,
    if_false]

/-- The Mermaid line of a message line. -/
theorem WellFormed.convertMessage?_text (h : m.WellFormed) :
    convertMessage? m.text = some m.inMermaid := by
  have harrow : mermaidArrow m.arrow.toArrowKind m.activation =
      (if m.arrow.dashed then "-->>".toText else "->>".toText) ++ m.activation.sign := by
    cases m.activation <;> rfl
  rw [convertMessage?, h.ofLine?_text, Option.map_some, Message.toMermaid]
  simp only [WrittenArrow.ofText_text, harrow]
  unfold inMermaid source target
  cases m.arrow.pointsLeft with
  | true => simp only [if_true, List.append_assoc]
  | false => simp only [Bool.false_eq_true, if_false, List.append_assoc]

/-! ## The Mermaid line -/

theorem WellFormed.isName_source (h : m.WellFormed) : Text.IsName m.source := by
  unfold source
  split
  · exact h.right
  · exact h.left

theorem WellFormed.isName_target (h : m.WellFormed) : Text.IsName m.target := by
  unfold target
  split
  · exact h.left
  · exact h.right

theorem exists_inMermaid (m : WrittenMessage) :
    ∃ rest, m.inMermaid = m.source ++ .char '-' :: rest := by
  unfold inMermaid
  cases m.arrow.dashed <;> exact ⟨_, rfl⟩

end WrittenMessage

end Lifeline.PlantUml
