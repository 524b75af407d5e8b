import Lifeline.Proofs.PlantUml.Readings

/-!
# The lines of a converted diagram

Each line of a converted diagram but the header comes from one line of the original.
It is a title, the switch of message numbers, a declaration, a note, a line of a
fragment or a message, and it is one line again.
-/

namespace Lifeline.PlantUml

variable {line out : Text} {ls : List Text}

/-- The Mermaid lines that a trimmed line can give. -/
inductive Gives (line : Text) : Text → Prop
  | title {title : Text} (h : title ⊆ line) : Gives line ("title ".toText ++ title)
  | autonumber : Gives line "autonumber".toText
  | declaration {d : Declaration} (h : Declaration.ofLine? line = some d) : Gives line d.toMermaid
  | note {n : Note} (h : Note.ofLine? line = some n) : Gives line n.toMermaid
  | fragmentEnd : Gives line "end".toText
  | fragment {word rest : Text} (hword : word ∈ fragmentKeywords) (hrest : rest ⊆ line) :
      Gives line (if rest.isEmpty then word else word ++ .char ' ' :: rest)
  | message {m : Message} (h : Message.ofLine? line = some m) : Gives line m.toMermaid

/-- The kinds of lines that are converted, with how each is read. -/
inductive ReadAs (line : Text) : Text → Prop
  | title {title : Text} (h : title? line = some title) : ReadAs line ("title ".toText ++ title)
  | autonumber : ReadAs line "autonumber".toText
  | declaration {d : Declaration} (h : Declaration.ofLine? line = some d) : ReadAs line d.toMermaid
  | note {n : Note} (h : Note.ofLine? line = some n) : ReadAs line n.toMermaid
  | fragment {out : Text} (h : convertFragment? line = some out) : ReadAs line out
  | message {m : Message} (h : Message.ofLine? line = some m) : ReadAs line m.toMermaid

theorem readAs_of_drawing (h : (drawing line).2 = .converted out) : ReadAs line out := by
  -- The readings are tried in this order; each that succeeds gives its own line.
  unfold drawing at h
  split at h
  · rename_i hdeclaration
    obtain ⟨d, hd, rfl⟩ := Option.map_eq_some_iff.mp hdeclaration
    obtain rfl := Verdict.converted.inj h
    exact .declaration hd
  · split at h
    · rename_i hnote
      obtain ⟨n, hn, rfl⟩ := Option.map_eq_some_iff.mp hnote
      obtain rfl := Verdict.converted.inj h
      exact .note hn
    · split at h
      · contradiction
      · split at h
        · contradiction
        · simp only [fragmentOrMessage] at h
          split at h
          · rename_i hfragment
            obtain rfl := Verdict.converted.inj h
            exact .fragment hfragment
          · split at h
            · rename_i hmessage
              obtain ⟨m, hm, rfl⟩ := Option.map_eq_some_iff.mp hmessage
              obtain rfl := Verdict.converted.inj h
              exact .message hm
            · contradiction

/-- Every converted line is read in one of these ways. -/
theorem readAs_of_neutralStep (h : (neutralStep line).2 = .converted out) : ReadAs line out := by
  unfold neutralStep at h
  split at h
  · contradiction
  · contradiction
  · contradiction
  · contradiction
  · split at h
    · contradiction
    · split at h
      · rename_i htitle
        obtain rfl := Verdict.converted.inj h
        exact .title htitle
      · split at h
        · obtain rfl := Verdict.converted.inj h
          exact .autonumber
        · exact readAs_of_drawing h

theorem gives_of_convertFragment? (h : convertFragment? line = some out) : Gives line out := by
  unfold convertFragment? at h
  split at h
  · obtain rfl := Option.some.inj h
    exact .fragmentEnd
  · split at h
    · contradiction
    · rename_i word rest hfragment
      obtain ⟨hword, hrest⟩ := fragment?_subset hfragment
      split at h
      · contradiction
      · have hout : out = if rest.isEmpty then word else word ++ .char ' ' :: rest := by
          split at h
          · rename_i hempty
            rw [if_pos hempty, Option.some.inj h]
          · rename_i hempty
            rw [if_neg hempty, Option.some.inj h]
        rw [hout]
        exact .fragment hword hrest

/-- All that a line can become. -/
theorem gives_of_neutralStep (h : (neutralStep line).2 = .converted out) : Gives line out := by
  cases readAs_of_neutralStep h with
  | title htitle => exact .title (title?_subset htitle)
  | autonumber => exact .autonumber
  | declaration hdeclaration => exact .declaration hdeclaration
  | note hnote => exact .note hnote
  | fragment hfragment => exact gives_of_convertFragment? hfragment
  | message hmessage => exact .message hmessage

/-! ## The characters of a Mermaid line -/

/-- The letters and marks of the words and arrows that the converter writes itself. -/
def isWritten (c : CodePoint) : Bool :=
  c.isAlpha || " :,<>/+-\u0307".toText.elem c

section

variable {c : CodePoint} (hwritten : isWritten c = false)
include hwritten

theorem notMem_of_all_isWritten {t : Text} (ht : t.all isWritten = true) : c ∉ t := by
  intro hmem
  rw [List.all_eq_true.mp ht c hmem] at hwritten
  contradiction

/-- Small letters are written, as is the dot over a small letter. -/
theorem notMem_lower {t : Text} (ht : c ∉ t) : c ∉ Text.lower t := by
  intro hmem
  rcases Text.mem_lower hmem with hinside | halpha | rfl
  · exact ht hinside
  · rw [isWritten, halpha, Bool.true_or] at hwritten
    contradiction
  · contradiction

theorem notMem_declaration {d : Declaration} (hline : c ∉ line)
    (h : Declaration.ofLine? line = some d) : c ∉ d.toMermaid := by
  obtain ⟨hname, hother, -⟩ := Declaration.ofLine?_subset h
  have hlabel : c ∉ Text.collapseBlanks (Text.strip d.name.text) := by
    intro hmem
    rcases Text.mem_collapseFrom hmem with rfl | hmem
    · contradiction
    · exact hline (hname (Text.strip_subset _ hmem))
  have hkeyword : c ∉ if d.isActor then "actor ".toText else "participant ".toText := by
    split <;> exact notMem_of_all_isWritten hwritten (by decide)
  have has : c ∉ " as ".toText := notMem_of_all_isWritten hwritten (by decide)
  unfold Declaration.toMermaid
  cases hsome : d.otherName? with
  | none =>
      simp only [List.mem_append, not_or]
      exact ⟨hkeyword, hlabel⟩
  | some other =>
      have hshort : c ∉ other.text := fun hmem => hline (hother other hsome hmem)
      simp only
      split
      · simp only [List.mem_append, not_or]
        exact ⟨⟨⟨hkeyword, hlabel⟩, has⟩, hshort⟩
      · simp only [List.mem_append, not_or]
        exact ⟨⟨⟨hkeyword, hshort⟩, has⟩, hlabel⟩

theorem notMem_note {n : Note} (hline : c ∉ line) (h : Note.ofLine? line = some n) :
    c ∉ n.toMermaid := by
  obtain ⟨⟨written, hplace, hlower⟩, hfirst, hsecond, htext⟩ := Note.ofLine?_subset h
  have hword : ∀ word : Text, word.all isWritten = true → c ∉ word :=
    fun word => notMem_of_all_isWritten hwritten
  have hbody : c ∉ Text.replaceAll "\\n".toText "<br/>".toText n.text := by
    intro hmem
    rcases Text.mem_replaceAll (by decide) hmem with htag | hmem
    · exact hword _ (by decide) htag
    · exact hline (htext hmem)
  have hside : c ∉ n.place := by
    rw [hlower]
    exact notMem_lower hwritten fun hmem => hline (hplace hmem)
  have hname : c ∉ n.first := fun hmem => hline (hfirst hmem)
  unfold Note.toMermaid
  -- A note over participants names one or two, any other names its side and one.
  split
  · have hover : ∀ targets, c ∉ targets →
        c ∉ "Note over ".toText ++ targets ++ ": ".toText ++
          Text.replaceAll "\\n".toText "<br/>".toText n.text := by
      intro targets htargets
      simp only [List.mem_append, not_or]
      exact ⟨⟨⟨hword _ (by decide), htargets⟩, hword _ (by decide)⟩, hbody⟩
    apply hover
    cases hsome : n.second? with
    | none => exact hname
    | some second =>
        have hcomma : c ≠ .char ',' := List.ne_of_not_mem_cons (hword [.char ','] (by decide))
        show c ∉ n.first ++ .char ',' :: second
        simp only [List.mem_append, List.mem_cons, not_or]
        exact ⟨hname, hcomma, fun hmem => hline (hsecond second hsome hmem)⟩
  · simp only [List.mem_append, not_or]
    exact ⟨⟨⟨⟨⟨hword _ (by decide), hside⟩, hword _ (by decide)⟩, hname⟩, hword _ (by decide)⟩,
      hbody⟩

theorem notMem_message {m : Message} (hline : c ∉ line) (h : Message.ofLine? line = some m) :
    c ∉ m.toMermaid := by
  obtain ⟨hsource, htarget, hlabel⟩ := Message.ofLine?_standsIn h
  have hends : ∀ name, Message.StandsIn line name → c ∉ name :=
    fun name hstands hmem => hline (hstands.subset hmem)
  have harrow : ∀ kind activation, c ∉ mermaidArrow kind activation := by
    intro kind activation
    apply notMem_of_all_isWritten hwritten
    obtain ⟨pointsLeft, dashed⟩ := kind
    cases pointsLeft <;> cases dashed <;> cases activation <;> decide
  have hback : c ∉ if m.label.isEmpty then [.char ':'] else ": ".toText ++ m.label := by
    split
    · exact notMem_of_all_isWritten hwritten (by decide)
    · simp only [List.mem_append, not_or]
      exact ⟨notMem_of_all_isWritten hwritten (by decide), fun hmem => hline (hlabel hmem)⟩
  unfold Message.toMermaid
  simp only
  -- An arrow that points left is turned round, with the names exchanged.
  cases (ArrowKind.ofText m.arrow).pointsLeft with
  | true =>
      simp only [if_true, List.mem_append, not_or]
      exact ⟨⟨⟨hends _ htarget, harrow _ _⟩, hends _ hsource⟩, hback⟩
  | false =>
      simp only [Bool.false_eq_true, if_false, List.mem_append, not_or]
      exact ⟨⟨⟨hends _ hsource, harrow _ _⟩, hends _ htarget⟩, hback⟩

/-- What the converter does not write itself is in a Mermaid line only when it is in the line
that gives it. -/
theorem Gives.notMem (h : Gives line out) (hline : c ∉ line) : c ∉ out := by
  cases h with
  | title h =>
      rw [List.mem_append, not_or]
      exact ⟨notMem_of_all_isWritten hwritten (by decide), fun hmem => hline (h hmem)⟩
  | autonumber => exact notMem_of_all_isWritten hwritten (by decide)
  | declaration h => exact notMem_declaration hwritten hline h
  | note h => exact notMem_note hwritten hline h
  | fragmentEnd => exact notMem_of_all_isWritten hwritten (by decide)
  | fragment hword hrest =>
      have hwords :
          ∀ word ∈ fragmentKeywords, (word ++ [CodePoint.char ' ']).all isWritten = true := by
        decide
      have hopening := notMem_of_all_isWritten hwritten (hwords _ hword)
      rw [List.mem_append, not_or] at hopening
      split
      · exact hopening.1
      · rw [List.mem_append, List.mem_cons, not_or, not_or]
        exact ⟨hopening.1, List.ne_of_not_mem_cons hopening.2, fun hmem => hline (hrest hmem)⟩
  | message h => exact notMem_message hwritten hline h

end

/-- A line gives one line. -/
theorem Gives.newline_notMem (h : Gives line out) (hline : .char '\n' ∉ line) : .char '\n' ∉ out :=
  h.notMem (by decide) hline

/-! ## Diagrams -/

theorem Verdict.mermaid?_eq_some {v : Verdict} (h : v.mermaid? = some out) :
    v = .converted out := by
  cases v with
  | dropped => contradiction
  | converted m => exact congrArg Verdict.converted (Option.some.inj h)
  | unrecognized => contradiction

/-- Only the neutral mode converts. -/
theorem neutralStep_of_step {mode : Mode} (h : (step mode line).2 = .converted out) :
    (neutralStep line).2 = .converted out := by
  cases mode with
  | neutral => exact h
  | comment => contradiction
  | note => contradiction
  | styling more => contradiction

/-- Each Mermaid line comes from a line that is converted in the neutral mode. -/
theorem exists_of_mem_verdicts {mode : Mode}
    (h : out ∈ (verdicts mode ls).filterMap Verdict.mermaid?) :
    ∃ line ∈ ls, (neutralStep line).2 = .converted out := by
  obtain ⟨verdict, hverdict, hmermaid⟩ := List.mem_filterMap.mp h
  obtain rfl := Verdict.mermaid?_eq_some hmermaid
  clear h
  -- The mode changes from line to line.
  induction ls generalizing mode with
  | nil => contradiction
  | cons line ls ih =>
      rw [verdicts] at hverdict
      rcases List.mem_cons.mp hverdict with heq | hmem
      · exact ⟨line, List.mem_cons_self, neutralStep_of_step heq.symm⟩
      · obtain ⟨source, hsource, hstep⟩ := ih hmem
        exact ⟨source, List.mem_cons_of_mem line hsource, hstep⟩

theorem newline_notMem_of_mem_trimmedLines {code : Text} (h : line ∈ trimmedLines code) :
    .char '\n' ∉ line := by
  obtain ⟨piece, hpiece, rfl⟩ := List.mem_map.mp h
  exact fun hmem => Text.newline_notMem_of_mem_lines hpiece (Text.strip_subset piece hmem)

/-- What the converter does not write itself is in a converted diagram only when it is in a
line that is converted. -/
theorem notMem_convert {c : CodePoint} {code : Text} (hwritten : isWritten c = false)
    (hc : c ≠ '\n')
    (h : ∀ line ∈ trimmedLines code, ∀ out, (neutralStep line).2 = .converted out → c ∉ line) :
    c ∉ convert code := by
  intro hmem
  obtain ⟨l, hl, hinside⟩ := Text.exists_infix_of_infix_unlines (List.cons_ne_nil c [])
    (fun hnewline => hc (List.mem_singleton.mp hnewline).symm)
    ((List.singleton_infix_iff c _).mpr hmem)
  have hcl := (List.singleton_infix_iff c l).mp hinside
  rcases List.mem_cons.mp hl with rfl | hl
  · exact notMem_of_all_isWritten hwritten (by decide) hcl
  · obtain ⟨out, hout, rfl⟩ := List.mem_map.mp hl
    obtain ⟨line, hline, hstep⟩ := exists_of_mem_verdicts hout
    rcases List.mem_append.mp hcl with hindent | hcout
    · exact notMem_of_all_isWritten hwritten (by decide) hindent
    · exact (gives_of_neutralStep hstep).notMem hwritten (h line hline out hstep) hcout

/-- Strictness changes nothing about a diagram that is converted. -/
theorem convert_eq_of_convertStrict {code m : Text} (h : convertStrict code = .ok m) :
    convert code = m := by
  simp only [convertStrict] at h
  split at h
  · contradiction
  · exact Except.ok.inj h

/-- The lines of a diagram are the header and the given lines. -/
theorem trimmedLines_diagram (hls : ∀ l ∈ ls, .char '\n' ∉ l) :
    trimmedLines (diagram ls) = header :: ls.map Text.strip := by
  have hlines : ∀ l ∈ header :: ls.map fun l => "    ".toText ++ l, .char '\n' ∉ l := by
    intro l hl
    rcases List.mem_cons.mp hl with rfl | hl
    · decide
    · obtain ⟨k, hk, rfl⟩ := List.mem_map.mp hl
      rw [List.mem_append, not_or]
      exact ⟨by decide, hls k hk⟩
  have hindent : ∀ l : Text, Text.strip ("    ".toText ++ l) = Text.strip l := by
    intro l
    rw [Text.strip, Text.dropBlanks_append_of_blank (by decide)]
    rfl
  rw [trimmedLines, diagram, Text.lines_unlines (List.cons_ne_nil _ _) hlines, List.map_cons,
    List.map_map]
  refine congrArg₂ List.cons rfl (List.map_congr_left fun l _ => ?_)
  exact hindent l

theorem newline_notMem_of_mem_verdicts {code : Text} :
    ∀ l ∈ (verdicts .neutral (trimmedLines code)).filterMap Verdict.mermaid?, .char '\n' ∉ l := by
  intro l hl
  obtain ⟨source, hsource, hstep⟩ := exists_of_mem_verdicts hl
  exact (gives_of_neutralStep hstep).newline_notMem (newline_notMem_of_mem_trimmedLines hsource)

/-- A trimmed line of a converted diagram is the header, or comes from a line of the
original. -/
theorem mem_trimmedLines_convert {code : Text} (h : line ∈ trimmedLines (convert code)) :
    line = header ∨ ∃ source ∈ trimmedLines code, ∃ out,
      (neutralStep source).2 = .converted out ∧ line = Text.strip out := by
  -- A line feed in a Mermaid line would make two lines of it.
  rw [convert, trimmedLines_diagram newline_notMem_of_mem_verdicts] at h
  rcases List.mem_cons.mp h with rfl | h
  · exact Or.inl rfl
  · obtain ⟨out, hout, rfl⟩ := List.mem_map.mp h
    obtain ⟨source, hsource, hstep⟩ := exists_of_mem_verdicts hout
    exact Or.inr ⟨source, hsource, out, hstep, rfl⟩

end Lifeline.PlantUml
