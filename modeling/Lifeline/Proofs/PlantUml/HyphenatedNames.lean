import Lifeline.Proofs.PlantUml.MessageLines

/-!
# Names with hyphens in front of an arrow

The keyword of a fragment ends where its word ends, and a hyphen ends a word as white
space does.  Behind the keyword an arrow is looked for, since a keyword in front of an
arrow is the name of a participant.  So a message from a name without hyphens is safe,
and one from a name that goes on behind a keyword with a hyphen is taken for a fragment.
-/

namespace Lifeline.PlantUml

variable {a b t name rest word : Text} {c : CodePoint}

/-! ## Keywords at the end of a word -/

section

variable (hname : Text.IsName name) (hc : Text.isWord c = false)
include hname hc

/-- A keyword of a fragment that ends in front of a mark is the whole name there. -/
theorem eq_of_after?_append {left : Text} (hword : word ∈ fragmentKeywords)
    (h : Text.after? word (name ++ c :: rest) = some left) (hend : Text.atWordEnd left = true) :
    word = name ∧ left = c :: rest := by
  have hletters : ∀ word ∈ fragmentKeywords, word.all Text.isWord = true := by decide
  have hmark : c ∉ word := fun hmem =>
    Text.ne_of_isWord (List.all_eq_true.mp (hletters word hword) c hmem) hc rfl
  rw [Text.after?_append hmark, Option.map_eq_some_iff] at h
  obtain ⟨more, hmore, rfl⟩ := h
  obtain rfl := Text.after?_eq_some_iff.mp hmore
  have hwords : ∀ b ∈ more, Text.isWord b = true :=
    fun b hb => hname.isWord b (List.mem_append_right word hb)
  rw [Text.atWordEnd_append hwords hc, List.isEmpty_iff] at hend
  rw [hend, List.append_nil, List.nil_append]
  exact ⟨rfl, rfl⟩

/-- The word at the beginning of a line opens, divides or closes a fragment exactly when it
is a keyword, whatever mark ends it. -/
theorem fragment?_append (rest : Text) : fragment? (name ++ c :: rest) =
    if name ∈ fragmentKeywords then
      (Text.line? (Text.dropBlanks (c :: rest))).map fun rest => (name, rest)
    else none := by
  unfold fragment?
  -- The keywords are tried in turn; the one that is found has to be the whole name.
  split
  · rename_i hnone
    have hnot : name ∉ fragmentKeywords := by
      intro hmem
      have hself := List.findSome?_eq_none_iff.mp hnone name hmem
      have hafter : Text.after? name (name ++ c :: rest) = some (c :: rest) :=
        Text.after?_eq_some_iff.mpr rfl
      have hend : Text.atWordEnd (c :: rest) = true := by rw [Text.atWordEnd, hc, Bool.not_false]
      simp [hafter, hend] at hself
    rw [if_neg hnot]
  · rename_i found behind hfound
    obtain ⟨word, hword, hread⟩ := List.exists_of_findSome?_eq_some hfound
    split at hread
    · rename_i left hafter
      split at hread
      · rename_i hend
        obtain ⟨rfl, rfl⟩ := Prod.mk.inj (Option.some.inj hread)
        obtain ⟨rfl, rfl⟩ := eq_of_after?_append hname hc hword hafter hend
        rw [if_pos hword]
      · contradiction
    · contradiction

end

theorem closesFragment_eq_false (h : .char ' ' ∈ t) : closesFragment t = false := by
  have hne : ∀ u : Text, .char ' ' ∉ u → (t == u) = false := by
    intro u hu
    apply beq_eq_false_iff_ne.mpr
    rintro rfl
    exact hu h
  rw [closesFragment, hne _ (by decide), hne _ (by decide), Bool.or_self]

/-- A hyphen in front of a word character begins no arrow. -/
theorem beginsWithArrow_hyphen (hc : Text.isWord c = true) (rest : Text) :
    beginsWithArrow (.char '-' :: c :: rest) = false := by
  have hbracket : c ≠ '[' := Text.ne_of_isWord hc (by decide)
  have hdash : c ≠ '-' := Text.ne_of_isWord hc (by decide)
  have hhead : c ≠ '>' := Text.ne_of_isWord hc (by decide)
  have hcolour : afterColour? (c :: rest) = none :=
    afterColour?_eq_none (by rintro _ ⟨⟩; exact hbracket)
  have hshafts : shafts (.char '-' :: c :: rest) = [c :: rest] := by
    simp only [shafts, hcolour, optionalChar, if_neg hdash, List.nil_append]
  rw [beginsWithArrow, arrowEnds]
  · rw [hshafts, List.flatMap_singleton]
    split
    · rename_i hcons
      exact absurd (List.cons.inj hcons).1 hhead
    · rfl
  · rintro v hv
    exact absurd (List.cons.inj hv).1 (by decide)

/-! ## Messages that are taken for fragments -/

/-- A name goes on with a hyphen behind a keyword of fragments. -/
def OpensWithKeyword (name : Text) : Prop :=
  ∃ word ∈ fragmentKeywords, ∃ rest, name = word ++ .char '-' :: rest

section

variable (kind : ArrowKind) (twoHeads : Bool)

/-- A message line is a name, a space, and a part without line feeds that begins with an
arrow whatever the label is. -/
theorem exists_messageLine_eq (hb : Text.IsHyphenated b) : ∃ front, .char '\n' ∉ front ∧
    (∀ label, beginsWithArrow (front ++ label) = true ∧
      Text.dropBlanks (front ++ label) = front ++ label) ∧
    ∀ a label, messageLine a b label kind twoHeads = a ++ .char ' ' :: (front ++ label) := by
  let arrow : WrittenArrow := ⟨kind, twoHeads, none⟩
  refine ⟨arrow.text ++ .char ' ' :: (b ++ " : ".toText), ?_, fun label => ⟨?_, ?_⟩, ?_⟩
  · have harrow : .char '\n' ∉ arrow.text :=
      notMem_text_arrow kind twoHeads (by decide) (by decide) (by decide)
    have hb' : .char '\n' ∉ b := hb.notMem (by decide) (by decide)
    simp [harrow, hb']
  · rw [List.append_assoc]
    apply beginsWithArrow_of_endsBefore
    rintro _ ⟨⟩
    exact ⟨by decide, fun _ => by decide⟩
  · rw [List.append_assoc]
    exact (opensArrow_text arrow _).dropBlanks
  · intro a label
    simp [messageLine, arrow]

/-- The keyword is read as far as the mark behind it, and its line as far as the label. -/
theorem convertFragment?_append (hname : Text.IsName name) (hc : Text.isWord c = false)
    (hspace : .char ' ' ∈ c :: rest) : convertFragment? (name ++ c :: rest) =
      if name ∈ fragmentKeywords then
        (Text.line? (Text.dropBlanks (c :: rest))).bind fun rest =>
          if beginsWithArrow rest then none
          else some (if rest.isEmpty then name else name ++ .char ' ' :: rest)
      else none := by
  rw [convertFragment?, closesFragment_eq_false (List.mem_append_right name hspace),
    if_neg (by decide), fragment?_append hname hc]
  by_cases hmem : name ∈ fragmentKeywords
  · rw [if_pos hmem, if_pos hmem]
    cases Text.line? (Text.dropBlanks (c :: rest)) with
    | none => rfl
    | some rest =>
        simp only [Option.map_some, Option.bind_some]
        split
        · rfl
        · split <;> rfl
  · rw [if_neg hmem, if_neg hmem]

/-- A message from a name without hyphens opens no fragment, whatever word the name is. -/
theorem convertFragment?_word (ha : Text.IsName a) (hb : Text.IsHyphenated b) (t : Text) :
    convertFragment? (messageLine a b t kind twoHeads) = none := by
  obtain ⟨front, hfront, harrow, hline⟩ := exists_messageLine_eq kind twoHeads hb
  rw [hline, convertFragment?_append ha (by decide) List.mem_cons_self,
    Text.dropBlanks_cons_of_isBlank _ (by decide), (harrow t).2, Text.line?_append hfront]
  split
  · cases Text.line? t with
    | none => rfl
    | some label => simp only [Option.map_some, Option.bind_some, (harrow label).1, if_true]
  · rfl

/-- The first word of a name with hyphens is taken for a keyword if it is one. -/
theorem convertFragment?_hyphen (hword : Text.IsName word) (hrest : Text.IsHyphenated rest)
    (hb : Text.IsHyphenated b) (t : Text) :
    convertFragment? (messageLine (word ++ .char '-' :: rest) b t kind twoHeads) =
      if word ∈ fragmentKeywords then
        (Text.line? t).map fun label =>
          word ++ .char ' ' :: messageLine (.char '-' :: rest) b label kind twoHeads
      else none := by
  obtain ⟨front, hfront, -, hline⟩ := exists_messageLine_eq kind twoHeads hb
  obtain ⟨c, tail, hcons, hc⟩ := hrest.exists_cons
  have hinner : .char '\n' ∉ .char '-' :: (rest ++ .char ' ' :: front) := by
    have hrest' : .char '\n' ∉ rest := hrest.notMem (by decide) (by decide)
    simp [hrest', hfront]
  -- What follows the keyword is a hyphen, so it begins with no arrow.
  have hwhole : ∀ label, .char '-' :: (rest ++ .char ' ' :: (front ++ label)) =
      .char '-' :: (rest ++ .char ' ' :: front) ++ label := fun label => by simp
  simp only [hline]
  rw [List.append_assoc, List.cons_append,
    convertFragment?_append hword (by decide) (by simp),
    Text.dropBlanks_cons_of_not_isBlank _ (by decide), hwhole, Text.line?_append hinner]
  split
  · cases Text.line? t with
    | none => rfl
    | some label =>
        have harrow : beginsWithArrow (.char '-' :: (rest ++ .char ' ' :: front) ++ label) =
            false := by
          rw [hcons]
          exact beginsWithArrow_hyphen hc _
        simp only [Option.map_some, Option.bind_some, harrow, Bool.false_eq_true, if_false]
        simp
  · rfl

/-- A message between names with hyphens is taken for the line of a fragment exactly when the
name in front goes on with a hyphen behind a keyword; then the rest of the line is what
the fragment is about. -/
theorem convertFragment?_messageLine_iff (ha : Text.IsHyphenated a) (hb : Text.IsHyphenated b)
    (t : Text) :
    (convertFragment? (messageLine a b t kind twoHeads) = none ↔
      ¬ OpensWithKeyword a ∨ Text.line? t = none) ∧
    ∀ word ∈ fragmentKeywords, ∀ rest, a = word ++ .char '-' :: rest →
      convertFragment? (messageLine a b t kind twoHeads) =
        (Text.line? t).map fun label =>
          word ++ .char ' ' :: messageLine (.char '-' :: rest) b label kind twoHeads := by
  have hletters : ∀ word ∈ fragmentKeywords, .char '-' ∉ word := by decide
  cases ha with
  | word ha =>
      have hnot : ∀ word rest, a ≠ word ++ .char '-' :: rest := by
        rintro word rest rfl
        exact ha.notMem (d := '-') (by decide) (by simp)
      refine ⟨iff_of_true (convertFragment?_word kind twoHeads ha hb t) (Or.inl ?_), ?_⟩
      · rintro ⟨word, -, rest, h⟩
        exact hnot word rest h
      · intro word _ rest h
        exact absurd h (hnot word rest)
  | @hyphen first more hfirst hmore =>
      have hread := convertFragment?_hyphen kind twoHeads hfirst hmore hb t
      -- A name is cut at its first hyphen in one way.
      have hsame : ∀ word ∈ fragmentKeywords, ∀ rest,
          first ++ .char '-' :: more = word ++ .char '-' :: rest → first = word ∧ more = rest := by
        intro word hword rest h
        have hcut : Text.cutAt? '-' (first ++ .char '-' :: more) = some (word, rest) :=
          Text.cutAt?_eq_some_iff.mpr ⟨h, hletters word hword⟩
        have hself : Text.cutAt? '-' (first ++ .char '-' :: more) = some (first, more) :=
          Text.cutAt?_eq_some_iff.mpr ⟨rfl, hfirst.notMem (by decide)⟩
        exact Prod.mk.inj (Option.some.inj (hself.symm.trans hcut))
      constructor
      · rw [hread]
        by_cases hmem : first ∈ fragmentKeywords
        · have hopens : OpensWithKeyword (first ++ .char '-' :: more) := ⟨first, hmem, more, rfl⟩
          simp [hmem, hopens]
        · have hopens : ¬ OpensWithKeyword (first ++ .char '-' :: more) := by
            rintro ⟨word, hword, rest, h⟩
            obtain ⟨rfl, -⟩ := hsame word hword rest h
            exact hmem hword
          simp [hmem, hopens]
      · intro word hword rest h
        obtain ⟨rfl, rfl⟩ := hsame word hword rest h
        rw [hread, if_pos hword]

theorem isHyphenated_optIn : Text.IsHyphenated "opt-in".toText := by
  have hopt : Text.IsName "opt".toText := ⟨by decide, List.all_eq_true.mp (by decide)⟩
  have hin : Text.IsName "in".toText := ⟨by decide, List.all_eq_true.mp (by decide)⟩
  exact .hyphen hopt (.word hin)

theorem convertFragment?_messageLine_iff_optIn :
    Text.IsHyphenated "opt-in".toText ∧
      (convertFragment? "opt-in <<-- opt-in : checks".toText = none ↔
        ¬ OpensWithKeyword "opt-in".toText ∨ Text.line? "checks".toText = none) ∧
      ∀ word ∈ fragmentKeywords, ∀ rest, "opt-in".toText = word ++ .char '-' :: rest →
        convertFragment? "opt-in <<-- opt-in : checks".toText =
          (Text.line? "checks".toText).map fun label =>
            word ++ .char ' ' :: messageLine (.char '-' :: rest) "opt-in".toText label
              ⟨true, true⟩ true :=
  ⟨isHyphenated_optIn, convertFragment?_messageLine_iff ⟨true, true⟩ true isHyphenated_optIn
    isHyphenated_optIn "checks".toText⟩

/-- A message from a participant named `opt-in` opens an optional fragment instead. -/
theorem convertFragment?_optIn_opens_fragment :
    Text.IsHyphenated "opt-in".toText ∧ Text.IsName "db".toText ∧
      messageLine "opt-in".toText "db".toText "query".toText ⟨false, false⟩ false =
        "opt-in -> db : query".toText ∧
      convertFragment? "opt-in -> db : query".toText = some "opt -in -> db : query".toText ∧
      convertMessage? "opt-in -> db : query".toText = some "opt-in->>db: query".toText := by
  have hdb : Text.IsName "db".toText := ⟨by decide, List.all_eq_true.mp (by decide)⟩
  exact ⟨isHyphenated_optIn, hdb, rfl, rfl, rfl⟩

end

end Lifeline.PlantUml
