import Lifeline.Proofs.PlantUml.Emission
import Lifeline.Proofs.PlantUml.HyphenatedNames
import Lifeline.Proofs.Text.Keywords

/-!
# Lines that open and close fragments

A fragment is opened by a line with a keyword and closed by a line that says `end`.  What the
converter makes of such lines, and of all others, is told line by line: an opening line gives an
opening line, `end` gives `end`, and nothing else gives an `end`.

Other lines can give an opening line all the same (`isMisread`).  The converter takes any mark
for the end of a keyword, and it writes names as they are, without the quotation marks that
keep the beginning of a name from being read as a keyword.
-/

namespace Lifeline.PlantUml

variable {line out word name rest more t : Text} {words : List Text} {p : Text → Bool}

/-! ## Lines that open and close fragments -/

/-- The keywords that open a fragment in PlantUML and in Mermaid. -/
def openers : List Text :=
  ["loop".toText, "alt".toText, "opt".toText, "par".toText, "critical".toText, "break".toText]

/-- The keyword that opens a fragment in PlantUML only. -/
def groupWord : Text := "group".toText

/-- A text begins with one of some words, and what follows the word satisfies a condition. -/
def beginsWith (words : List Text) (p : Text → Bool) (t : Text) : Bool :=
  words.any fun word => (Text.after? word t).any p

/-- Nothing follows, or white space. -/
def atBlank : Text → Bool
  | [] => true
  | c :: _ => Text.isBlank c

/-- Nothing follows a keyword, or white space, or a colour. -/
def atKeywordEnd : Text → Bool
  | [] => true
  | c :: _ => Text.isBlank c || c == '#'

/-- A PlantUML line opens a fragment with one of some keywords.  A keyword in front of an arrow
is the name of a participant. -/
def opensFragment (words : List Text) (line : Text) : Bool :=
  beginsWith words (fun rest => atKeywordEnd rest && !beginsWithArrow (Text.dropBlanks rest)) line

/-- A Mermaid line opens a fragment. -/
def opensMermaid (line : Text) : Bool :=
  beginsWith openers atBlank line

/-- A line closes a fragment. -/
def isEnd (line : Text) : Bool :=
  line == "end".toText

theorem beginsWith_iff : beginsWith words p t = true ↔
    ∃ word ∈ words, ∃ rest, t = word ++ rest ∧ p rest = true := by
  simp only [beginsWith, List.any_eq_true, Option.any_eq_true, Text.after?_eq_some_iff]

theorem atWordEnd_of_atBlank (h : atBlank t = true) : Text.atWordEnd t = true := by
  cases t with
  | nil => rfl
  | cons c t =>
      rw [Text.atWordEnd, Bool.not_eq_true']
      by_contra hword
      rw [Bool.not_eq_false] at hword
      rw [atBlank, Text.isBlank_of_isWord hword] at h
      contradiction

theorem atWordEnd_of_atKeywordEnd (h : atKeywordEnd t = true) : Text.atWordEnd t = true := by
  cases t with
  | nil => rfl
  | cons c t =>
      rw [atKeywordEnd, Bool.or_eq_true, beq_iff_eq] at h
      rcases h with hblank | rfl
      · exact atWordEnd_of_atBlank hblank
      · rfl

theorem atBlank_of_prefix {u : Text} (hu : u <+: t) (h : atBlank t = true) : atBlank u = true := by
  cases u with
  | nil => rfl
  | cons c u =>
      obtain ⟨rest, rfl⟩ := hu
      exact h

/-! ## The first word of a line -/

theorem takeWhile_isWord_append (hname : Text.IsName name) (hmore : Text.atWordEnd more = true) :
    (name ++ more).takeWhile Text.isWord = name := by
  rw [List.takeWhile_append_of_pos hname.isWord]
  cases more with
  | nil => rw [List.takeWhile_nil, List.append_nil]
  | cons c more =>
      rw [Text.atWordEnd, Bool.not_eq_true'] at hmore
      rw [List.takeWhile_cons_of_neg (by rw [hmore]; exact Bool.false_ne_true), List.append_nil]

/-- Trimming leaves the first word of a line as it is. -/
theorem strip_name_append (hname : Text.IsName name) (more : Text) :
    Text.strip (name ++ more) = name ++ Text.dropBlanksEnd more :=
  Text.strip_append hname.trim [] more

/-- Words of letters are names. -/
theorem isName_of_mem (h : ∀ word ∈ words, word ≠ [] ∧ word.all Text.isWord = true)
    (hword : word ∈ words) : Text.IsName word :=
  ⟨(h word hword).1, List.all_eq_true.mp (h word hword).2⟩

theorem isName_of_mem_openers (h : word ∈ openers) : Text.IsName word :=
  isName_of_mem (by decide) h

/-- Only the first word of a line tells whether it opens a fragment. -/
theorem opensMermaid_strip_iff (hname : Text.IsName name) (hmore : atBlank more = true) :
    opensMermaid (Text.strip (name ++ more)) = true ↔ name ∈ openers := by
  have hend : atBlank (Text.dropBlanksEnd more) = true :=
    atBlank_of_prefix (Text.dropBlanksEnd_prefix more) hmore
  rw [strip_name_append hname, opensMermaid, beginsWith_iff]
  constructor
  · rintro ⟨word, hword, rest, hsplit, hrest⟩
    have hfirst := congrArg (List.takeWhile Text.isWord) hsplit
    rw [takeWhile_isWord_append hname (atWordEnd_of_atBlank hend),
      takeWhile_isWord_append (isName_of_mem_openers hword) (atWordEnd_of_atBlank hrest)] at hfirst
    rwa [hfirst]
  · exact fun h => ⟨name, h, _, rfl, hend⟩

theorem eq_end_of_isEnd_strip (hname : Text.IsName name) (hmore : atBlank more = true)
    (h : isEnd (Text.strip (name ++ more)) = true) : name = "end".toText := by
  have hend : atBlank (Text.dropBlanksEnd more) = true :=
    atBlank_of_prefix (Text.dropBlanksEnd_prefix more) hmore
  rw [strip_name_append hname, isEnd, beq_iff_eq] at h
  have hfirst := congrArg (List.takeWhile Text.isWord) h
  rwa [takeWhile_isWord_append hname (atWordEnd_of_atBlank hend)] at hfirst

/-! ## Lines that begin with a keyword -/

/-- The other keywords that a converted line may begin with. -/
def otherKeywords : List Text :=
  directiveWords ++ declarationKeywords ++ ["note".toText, "end".toText]

/-- A line that begins with a keyword begins with no other one. -/
theorem afterKeyword?_opener (hword : word ∈ openers) (hrest : Text.atWordEnd rest = true) :
    ∀ other ∈ otherKeywords, Text.afterKeyword? other (word ++ rest) = none := by
  have hapart : ∀ word ∈ openers, ∀ other ∈ otherKeywords,
      Text.afterKeyword? other word = none := by decide
  have hletters : ∀ other ∈ otherKeywords, Text.IsKeyword other := by decide
  intro other hother
  cases rest with
  | nil =>
      rw [List.append_nil]
      exact hapart word hword other hother
  | cons c rest =>
      have hmark : ∀ w ∈ other, Text.isLetter w c = false := by
        intro w hw
        by_contra hletter
        rw [Bool.not_eq_false] at hletter
        have hlower := List.all_eq_true.mp (hletters other hother) w hw
        rw [Text.atWordEnd, Text.isWord_of_isLetter hlower hletter] at hrest
        contradiction
      rw [Text.afterKeyword?_append hmark, hapart word hword other hother, Option.map_none]

theorem place?_opener (hword : word ∈ openers) (hrest : Text.atWordEnd rest = true) :
    Note.place? (word ++ rest) = none := by
  have hfirst : ∀ word ∈ openers,
      (word.head?.any fun c => Text.isLetter 'h' c || Text.isLetter 'r' c) = false := by decide
  have hnote := afterKeyword?_opener hword hrest "note".toText (by decide)
  obtain ⟨c, tail, rfl⟩ := List.exists_cons_of_ne_nil (isName_of_mem_openers hword).ne_nil
  have hafter : Note.afterNote? (c :: tail ++ rest) = none := by
    have hother : (Text.isLetter 'h' c || Text.isLetter 'r' c) = false := hfirst _ hword
    rw [List.cons_append, Note.afterNote?, hother]
    exact hnote
  rw [Note.place?, hafter]

/-- A line that begins with such a keyword is read as a fragment or as a message. -/
theorem neutralStep_opener (hword : word ∈ openers) (hrest : Text.atWordEnd rest = true) :
    neutralStep (word ++ rest) = (.neutral, fragmentOrMessage (word ++ rest)) := by
  have hothers := afterKeyword?_opener hword hrest
  have hplace := place?_opener hword hrest
  have hname := isName_of_mem_openers hword
  have hdeclaration : convertDeclaration? (word ++ rest) = none := by
    have hnone : Text.keyword? declarationKeywords (word ++ rest) = none :=
      Text.keyword?_eq_none fun other hother =>
        hothers other (List.mem_append_left _ (List.mem_append_right _ hother))
    rw [convertDeclaration?, Declaration.ofLine?, hnone]
    rfl
  have hnote : convertNote? (word ++ rest) = none := by
    rw [convertNote?, Note.ofLine?, hplace]
    rfl
  have hbegins : Note.begins (word ++ rest) = false := by rw [Note.begins, hplace]
  have hends : Note.ends (word ++ rest) = false := by
    rw [Note.ends, hothers "end".toText (by decide)]
  have hdirective : ∀ other ∈ directiveWords, Text.afterKeyword? other (word ++ rest) = none :=
    fun other hother => hothers other (List.mem_append_left _ (List.mem_append_left _ hother))
  obtain ⟨c, tail, rfl⟩ := List.exists_cons_of_ne_nil hname.ne_nil
  have hc := hname.isWord c List.mem_cons_self
  rw [List.cons_append] at hdeclaration hnote hbegins hends hdirective ⊢
  rw [neutralStep_eq_drawing hc hdirective, drawing, hdeclaration, hnote, hbegins, hends]
  rfl

/-- The fragment of a line that begins with such a keyword, if no arrow follows. -/
theorem convertFragment?_opener (hword : word ∈ openers) (hrest : Text.atWordEnd rest = true)
    (harrow : beginsWithArrow (Text.dropBlanks rest) = false) (hline : .char '\n' ∉ rest) :
    convertFragment? (word ++ rest) =
      some (if (Text.dropBlanks rest).isEmpty then word
        else word ++ .char ' ' :: Text.dropBlanks rest) := by
  have hkeyword : ∀ word ∈ openers, word ∈ fragmentKeywords := by decide
  cases rest with
  | nil =>
      have halone : ∀ word ∈ openers, convertFragment? word = some word := by decide
      rw [List.append_nil, halone word hword]
      rfl
  | cons c rest =>
      have hmark : Text.isWord c = false := by rwa [Text.atWordEnd, Bool.not_eq_true'] at hrest
      have hcloses : closesFragment (word ++ c :: rest) = false := by
        -- No opening keyword begins the word that closes.
        have hends : ∀ word ∈ openers, ¬ word <+: "end".toText ∧ ¬ word <+: "end\n".toText := by
          decide
        have hne : ∀ u : Text, ¬ word <+: u → (word ++ c :: rest == u) = false := by
          intro u hu
          apply beq_eq_false_iff_ne.mpr
          rintro rfl
          exact hu (List.prefix_append word _)
        rw [closesFragment, hne _ (hends word hword).1, hne _ (hends word hword).2, Bool.or_self]
      have hbehind : .char '\n' ∉ Text.dropBlanks (c :: rest) :=
        fun hmem => hline ((Text.dropBlanks_suffix _).subset hmem)
      rw [convertFragment?, hcloses, if_neg Bool.false_ne_true,
        fragment?_append (isName_of_mem_openers hword) hmark, if_pos (hkeyword word hword),
        Text.line?_eq_some_self hbehind]
      simp only [Option.map_some, harrow, Bool.false_eq_true, if_false]
      split
      · rfl
      · rfl

/-! ## What a line can become -/

/-- The first words of Mermaid lines that belong to neither a fragment nor a message. -/
def plainWords : List Text :=
  ["title".toText, "autonumber".toText, "participant".toText, "actor".toText, "Note".toText]

/-- A text is one of some words, alone or with white space behind it. -/
def IsHeadedBy (words : List Text) (t : Text) : Prop :=
  ∃ name ∈ words, ∃ more, t = name ++ more ∧ atBlank more = true

theorem isName_of_mem_plainWords (h : word ∈ plainWords) : Text.IsName word :=
  isName_of_mem (by decide) h

theorem isHeadedBy_declaration (d : Declaration) : IsHeadedBy plainWords d.toMermaid := by
  have hspaced : ∀ name ∈ plainWords, ∀ t, IsHeadedBy plainWords (name ++ .char ' ' :: t) :=
    fun name hname t => ⟨name, hname, .char ' ' :: t, rfl, rfl⟩
  have hkeyword : ∃ name ∈ plainWords,
      (if d.isActor then "actor ".toText else "participant ".toText) = name ++ [.char ' '] := by
    split
    · exact ⟨"actor".toText, by decide, rfl⟩
    · exact ⟨"participant".toText, by decide, rfl⟩
  obtain ⟨name, hname, hsplit⟩ := hkeyword
  unfold Declaration.toMermaid
  rw [hsplit]
  cases d.otherName? with
  | none =>
      simp only [List.append_assoc, List.singleton_append]
      exact hspaced name hname _
  | some other =>
      simp only [List.append_assoc, List.singleton_append]
      split
      · exact hspaced name hname _
      · exact hspaced name hname _

theorem isHeadedBy_note (n : Note) : IsHeadedBy plainWords n.toMermaid := by
  have hspaced : ∀ t, IsHeadedBy plainWords ("Note".toText ++ .char ' ' :: t) :=
    fun t => ⟨"Note".toText, by decide, .char ' ' :: t, rfl, rfl⟩
  have hover : "Note over ".toText = "Note".toText ++ .char ' ' :: "over ".toText := rfl
  have hnote : "Note ".toText = "Note".toText ++ [.char ' '] := rfl
  unfold Note.toMermaid
  split
  · simp only [hover, List.append_assoc, List.cons_append]
    exact hspaced _
  · simp only [hnote, List.append_assoc, List.singleton_append]
    exact hspaced _

/-- A converted line is that of a fragment or a message, or begins with a plain word. -/
theorem converted_cases (h : (neutralStep line).2 = .converted out) :
    convertFragment? line = some out ∨
      (∃ m, Message.ofLine? line = some m ∧ m.toMermaid = out) ∨ IsHeadedBy plainWords out := by
  cases readAs_of_neutralStep h with
  | @title title _ => exact Or.inr (Or.inr
      ⟨"title".toText, by decide, .char ' ' :: title, rfl, rfl⟩)
  | autonumber => exact Or.inr (Or.inr ⟨"autonumber".toText, by decide, [], rfl, rfl⟩)
  | @declaration d _ => exact Or.inr (Or.inr (isHeadedBy_declaration d))
  | @note n _ => exact Or.inr (Or.inr (isHeadedBy_note n))
  | fragment hfragment => exact Or.inl hfragment
  | @message m hmessage => exact Or.inr (Or.inl ⟨m, hmessage, rfl⟩)

theorem isName_of_mem_fragmentKeywords (h : word ∈ fragmentKeywords) : Text.IsName word :=
  isName_of_mem (by decide) h

/-- A line of a fragment says `end`, or begins with its keyword, as its Mermaid line does. -/
theorem convertFragment?_cases (h : convertFragment? line = some out) (hline : .char '\n' ∉ line) :
    (line = "end".toText ∧ out = "end".toText) ∨
      ∃ word ∈ fragmentKeywords, ∃ rest, line = word ++ rest ∧ Text.atWordEnd rest = true ∧
        beginsWithArrow (Text.dropBlanks rest) = false ∧
        ∃ more, out = word ++ more ∧ atBlank more = true := by
  unfold convertFragment? at h
  split at h
  · rename_i hcloses
    refine Or.inl ⟨?_, (Option.some.inj h).symm⟩
    rw [closesFragment, Bool.or_eq_true, beq_iff_eq, beq_iff_eq] at hcloses
    refine hcloses.resolve_right ?_
    rintro rfl
    exact hline (by decide)
  split at h
  · exact absurd h.symm (Option.some_ne_none out)
  rename_i word behind hfragment
  obtain ⟨hword, rest, rfl, hrest, hbehind⟩ := exists_of_fragment? hfragment
  have hwhole : .char '\n' ∉ Text.dropBlanks rest := fun hmem =>
    hline (List.mem_append_right word ((Text.dropBlanks_suffix rest).subset hmem))
  rw [Text.line?_eq_some_self hwhole] at hbehind
  obtain rfl := Option.some.inj hbehind
  split at h
  · exact absurd h.symm (Option.some_ne_none out)
  rename_i harrow
  refine Or.inr ⟨word, hword, rest, rfl, hrest, eq_false_of_ne_true harrow, ?_⟩
  split at h
  · obtain rfl := Option.some.inj h
    exact ⟨[], (List.append_nil word).symm, rfl⟩
  · obtain rfl := Option.some.inj h
    exact ⟨_, rfl, rfl⟩

/-! ### Messages -/

/-- The participant from whom a message runs in Mermaid. -/
def Message.sender (m : Message) : Text :=
  if (ArrowKind.ofText m.arrow).pointsLeft then m.target else m.source

theorem exists_mermaidArrow_eq (kind : ArrowKind) (activation : Activation) :
    Text.Trim (mermaidArrow kind activation) ∧
      ∃ back, mermaidArrow kind activation = .char '-' :: back ∧ .char '>' ∈ back := by
  obtain ⟨pointsLeft, dashed⟩ := kind
  have hmarks : (mermaidArrow ⟨pointsLeft, dashed⟩ activation).all (!Text.isBlank ·) = true := by
    cases dashed <;> cases activation <;> rfl
  have hshape : ∃ back, mermaidArrow ⟨pointsLeft, dashed⟩ activation = .char '-' :: back ∧
      .char '>' ∈ back := by
    cases dashed <;> cases activation <;> exact ⟨_, rfl, by decide⟩
  refine ⟨Text.trim_of_forall ?_ fun c hc => ?_, hshape⟩
  · obtain ⟨back, hback, -⟩ := hshape
    rw [hback]
    exact List.cons_ne_nil _ _
  · have hmark := List.all_eq_true.mp hmarks c hc
    rwa [Bool.not_eq_true'] at hmark

/-- The Mermaid line of a message, trimmed, is its sender without white space in front, and an
arrow. -/
theorem strip_toMermaid (m : Message) : ∃ back,
    Text.strip m.toMermaid = Text.dropBlanks m.sender ++ .char '-' :: back ∧ .char '>' ∈ back := by
  obtain ⟨receiver, hreceiver⟩ : ∃ receiver, m.toMermaid = m.sender ++
      (mermaidArrow (ArrowKind.ofText m.arrow) m.activation ++ receiver) := by
    unfold Message.toMermaid Message.sender
    simp only
    split
    · exact ⟨_, by rw [List.append_assoc, List.append_assoc]⟩
    · exact ⟨_, by rw [List.append_assoc, List.append_assoc]⟩
  obtain ⟨htrim, back, hback, hhead⟩ :=
    exists_mermaidArrow_eq (ArrowKind.ofText m.arrow) m.activation
  refine ⟨back ++ Text.dropBlanksEnd receiver, ?_, List.mem_append_left _ hhead⟩
  rw [hreceiver, Text.strip_append htrim, hback, List.cons_append]

theorem not_isEnd_toMermaid (m : Message) : isEnd (Text.strip m.toMermaid) = false := by
  obtain ⟨back, hstrip, hhead⟩ := strip_toMermaid m
  rw [hstrip, isEnd, beq_eq_false_iff_ne]
  intro h
  have hmem : .char '>' ∈ "end".toText := by
    rw [← h]
    exact List.mem_append_right _ (List.mem_cons_of_mem _ hhead)
  exact absurd hmem (by decide)

/-- A name goes on behind a keyword with white space. -/
def goesOn (name : Text) : Bool :=
  beginsWith openers (fun rest => !rest.isEmpty && atBlank rest) (Text.dropBlanks name)

theorem opensMermaid_toMermaid (m : Message) :
    opensMermaid (Text.strip m.toMermaid) = goesOn m.sender := by
  have hletters : ∀ word ∈ openers, .char '-' ∉ word := by decide
  obtain ⟨back, hstrip, -⟩ := strip_toMermaid m
  rw [hstrip, Bool.eq_iff_iff, opensMermaid, goesOn, beginsWith_iff, beginsWith_iff]
  constructor
  · rintro ⟨word, hword, rest, hsplit, hrest⟩
    have hafter : Text.after? word (Text.dropBlanks m.sender ++ .char '-' :: back) = some rest :=
      Text.after?_eq_some_iff.mpr hsplit
    rw [Text.after?_append (hletters word hword), Option.map_eq_some_iff] at hafter
    obtain ⟨left, hleft, rfl⟩ := hafter
    refine ⟨word, hword, left, Text.after?_eq_some_iff.mp hleft, ?_⟩
    -- An arrow is no white space, so the name goes on.
    cases left with
    | nil => exact absurd hrest Bool.false_ne_true
    | cons c left => exact hrest
  · rintro ⟨word, hword, rest, hsplit, hrest⟩
    refine ⟨word, hword, rest ++ .char '-' :: back, by rw [hsplit, List.append_assoc], ?_⟩
    cases rest with
    | nil => exact absurd hrest Bool.false_ne_true
    | cons c rest => exact hrest

/-! ## One line -/

/-- A keyword goes on with a mark that ends it only for the converter, as a hyphen does. -/
def isGlued (line : Text) : Bool :=
  beginsWith openers
    (fun rest => Text.atWordEnd rest && !atKeywordEnd rest && !beginsWithArrow rest) line

/-- A line that opens no fragment is converted to one that does: a keyword goes on with a mark,
or the sender of a message has a name that goes on behind a keyword. -/
def isMisread (line : Text) : Bool :=
  isGlued line || (Message.ofLine? line).any fun m =>
    decide ((neutralStep line).2 = .converted m.toMermaid) && goesOn m.sender

/-- The Mermaid line, trimmed, that a line gives. -/
def mermaidLine? (line : Text) : Option Text :=
  (neutralStep line).2.mermaid?.map Text.strip

/-- A line that opens a fragment, or that the converter takes for one. -/
theorem opensFragment_or_isGlued_iff : opensFragment openers line = true ∨ isGlued line = true ↔
    ∃ word ∈ openers, ∃ rest, line = word ++ rest ∧ Text.atWordEnd rest = true ∧
      beginsWithArrow (Text.dropBlanks rest) = false := by
  simp only [opensFragment, isGlued, beginsWith_iff, Bool.and_eq_true, Bool.not_eq_true']
  constructor
  · rintro (⟨word, hword, rest, hsplit, hrest, harrow⟩ |
      ⟨word, hword, rest, hsplit, ⟨hrest, hmark⟩, harrow⟩)
    · exact ⟨word, hword, rest, hsplit, atWordEnd_of_atKeywordEnd hrest, harrow⟩
    · refine ⟨word, hword, rest, hsplit, hrest, ?_⟩
      cases rest with
      | nil => contradiction
      | cons c rest =>
          rw [atKeywordEnd, Bool.or_eq_false_iff] at hmark
          rwa [Text.dropBlanks_cons_of_not_isBlank _ hmark.1]
  · rintro ⟨word, hword, rest, hsplit, hrest, harrow⟩
    by_cases hmark : atKeywordEnd rest = true
    · exact Or.inl ⟨word, hword, rest, hsplit, hmark, harrow⟩
    · refine Or.inr ⟨word, hword, rest, hsplit, ⟨hrest, eq_false_of_ne_true hmark⟩, ?_⟩
      cases rest with
      | nil => exact absurd rfl hmark
      | cons c rest =>
          rw [atKeywordEnd, Bool.or_eq_true, not_or] at hmark
          rwa [Text.dropBlanks_cons_of_not_isBlank _ (eq_false_of_ne_true hmark.1)] at harrow

/-- Such a line is converted to one that opens a fragment. -/
theorem opensMermaid_of_opener (hword : word ∈ openers) (hrest : Text.atWordEnd rest = true)
    (harrow : beginsWithArrow (Text.dropBlanks rest) = false) (hline : .char '\n' ∉ rest) :
    ∃ out, (neutralStep (word ++ rest)).2 = .converted out ∧
      opensMermaid (Text.strip out) = true := by
  have hname := isName_of_mem_openers hword
  have hfragment := convertFragment?_opener hword hrest harrow hline
  refine ⟨_, by rw [neutralStep_opener hword hrest, fragmentOrMessage, hfragment], ?_⟩
  split
  · have halone : opensMermaid (Text.strip (word ++ [])) = true :=
      (opensMermaid_strip_iff hname rfl).mpr hword
    rwa [List.append_nil] at halone
  · exact (opensMermaid_strip_iff hname rfl).mpr hword

theorem mermaidLine?_of_converted (h : (neutralStep line).2 = .converted out) :
    mermaidLine? line = some (Text.strip out) := by
  rw [mermaidLine?, h]
  rfl

/-- Only an opening line, or one that is misread, is converted to a line that opens a fragment. -/
theorem any_opensMermaid_mermaidLine? (hline : .char '\n' ∉ line) :
    (mermaidLine? line).any opensMermaid = (opensFragment openers line || isMisread line) := by
  have hplain : ∀ name ∈ plainWords, name ∉ openers := by decide
  rw [Bool.eq_iff_iff, isMisread, Bool.or_eq_true, Bool.or_eq_true, ← or_assoc,
    opensFragment_or_isGlued_iff, Option.any_eq_true, Option.any_eq_true]
  constructor
  · rintro ⟨trimmed, htrimmed, hopens⟩
    obtain ⟨out, hout, rfl⟩ := Option.map_eq_some_iff.mp htrimmed
    have hconverted := Verdict.mermaid?_eq_some hout
    -- A line that is converted is one of a fragment, a message, or begins with a plain word.
    rcases converted_cases hconverted with hfragment | ⟨m, hm, rfl⟩ |
      ⟨name, hname, more, rfl, hmore⟩
    · rcases convertFragment?_cases hfragment hline with ⟨-, rfl⟩ |
        ⟨word, hword, rest, rfl, hrest, harrow, more, rfl, hmore⟩
      · exact absurd hopens (by decide)
      · rw [opensMermaid_strip_iff (isName_of_mem_fragmentKeywords hword) hmore] at hopens
        exact Or.inl ⟨word, hopens, rest, rfl, hrest, harrow⟩
    · refine Or.inr ⟨m, hm, ?_⟩
      rw [Bool.and_eq_true, decide_eq_true_eq, ← opensMermaid_toMermaid]
      exact ⟨hconverted, hopens⟩
    · rw [opensMermaid_strip_iff (isName_of_mem_plainWords hname) hmore] at hopens
      exact absurd hopens (hplain name hname)
  · rintro (⟨word, hword, rest, rfl, hrest, harrow⟩ | ⟨m, -, hmessage⟩)
    · obtain ⟨out, hconverted, hopens⟩ := opensMermaid_of_opener hword hrest harrow
        fun hmem => hline (List.mem_append_right word hmem)
      exact ⟨_, mermaidLine?_of_converted hconverted, hopens⟩
    · rw [Bool.and_eq_true, decide_eq_true_eq] at hmessage
      refine ⟨_, mermaidLine?_of_converted hmessage.1, ?_⟩
      rw [opensMermaid_toMermaid]
      exact hmessage.2

example : (mermaidLine? "opt-in -> db : query".toText).any opensMermaid = true := by
  decide +kernel

example : (mermaidLine? "\"loop 3 times\" -> db : query".toText).any opensMermaid = true := by
  decide +kernel

/-- Only a line that says `end` is converted to one that does. -/
theorem any_isEnd_mermaidLine? (hline : .char '\n' ∉ line) :
    (mermaidLine? line).any isEnd = isEnd line := by
  have hfragment : "end".toText ∉ fragmentKeywords := by decide
  have hplain : "end".toText ∉ plainWords := by decide
  by_cases hend : line = "end".toText
  · rw [hend]
    decide
  · have hself : isEnd line = false := beq_eq_false_iff_ne.mpr hend
    rw [hself, Bool.eq_false_iff]
    intro h
    obtain ⟨trimmed, htrimmed, hsays⟩ := (Option.any_eq_true _ _).mp h
    obtain ⟨out, hout, rfl⟩ := Option.map_eq_some_iff.mp htrimmed
    rcases converted_cases (Verdict.mermaid?_eq_some hout) with
      hread | ⟨m, -, rfl⟩ | ⟨name, hname, more, rfl, hmore⟩
    · rcases convertFragment?_cases hread hline with ⟨hself, -⟩ |
        ⟨word, hword, rest, -, -, -, more, rfl, hmore⟩
      · exact hend hself
      · obtain rfl := eq_end_of_isEnd_strip (isName_of_mem_fragmentKeywords hword) hmore hsays
        exact hfragment hword
    · rw [not_isEnd_toMermaid] at hsays
      contradiction
    · obtain rfl := eq_end_of_isEnd_strip (isName_of_mem_plainWords hname) hmore hsays
      exact hplain hname

end Lifeline.PlantUml
