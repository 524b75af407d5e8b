import Lifeline.PlantUml.Conversion
import Lifeline.Proofs.Text.Matching
import Lifeline.Proofs.Text.Names
import Lifeline.Proofs.Text.Parts
import Lifeline.Proofs.Text.Trimming

/-!
# What readers take from a line

Readers of declarations, notes, fragments and messages take parts of their line, so
what they give has no characters that the line does not have.  A name at an end of a
message is more: it stands in double quotes, or is trimmed and has no colon.
-/

namespace Lifeline.PlantUml

variable {α : Type} {next : Text → Option α} {a : α} {line name label t u behind : Text}

/-! ## Arrows and marks -/

theorem suffix_of_mem_optionalChar {c : CodePoint} (h : u ∈ optionalChar c t) : u <:+ t := by
  cases t with
  | nil =>
      rw [List.mem_singleton.mp h]
  | cons d t =>
      rw [optionalChar] at h
      split at h
      · rcases List.mem_cons.mp h with rfl | h
        · exact List.suffix_cons d u
        · rw [List.mem_singleton.mp h]
      · rw [List.mem_singleton.mp h]

theorem afterColour?_suffix (h : afterColour? t = some behind) : behind <:+ t := by
  unfold afterColour? at h
  split at h
  · rename_i c rest
    split at h
    · contradiction
    · obtain ⟨⟨before, after⟩, hcut, rfl⟩ := Option.map_eq_some_iff.mp h
      have hsuffix := Text.cutAt?_suffix hcut
      exact hsuffix.trans ⟨['[', '#', c], rfl⟩
  · contradiction

theorem suffix_of_mem_shafts (h : u ∈ shafts t) : u <:+ t := by
  unfold shafts at h
  split at h
  · rename_i rest
    refine List.IsSuffix.trans ?_ (List.suffix_cons (.char '-') rest)
    rcases List.mem_append.mp h with h | h
    · split at h
      · rename_i behind hcolour
        exact (suffix_of_mem_optionalChar h).trans (afterColour?_suffix hcolour)
      · contradiction
    · exact suffix_of_mem_optionalChar h
  · contradiction

theorem suffix_of_mem_arrowEnds (h : behind ∈ arrowEnds t) : behind <:+ t := by
  unfold arrowEnds at h
  split at h
  · rename_i rest
    obtain ⟨u, hu, h⟩ := List.mem_flatMap.mp h
    obtain ⟨v, hv, h⟩ := List.mem_flatMap.mp h
    have hshaft : v <:+ .char '<' :: rest :=
      (suffix_of_mem_shafts hv).trans
        ((suffix_of_mem_optionalChar hu).trans (List.suffix_cons (.char '<') rest))
    -- Behind the shaft stand heads of an arrow, two, one or none.
    refine List.IsSuffix.trans ?_ hshaft
    split at h
    · rename_i w
      simp only [List.mem_cons, List.not_mem_nil, or_false] at h
      rcases h with rfl | rfl | rfl
      · exact ⟨[.char '>', .char '>'], rfl⟩
      · exact List.suffix_cons (CodePoint.char '>') _
      · exact List.suffix_refl _
    · rename_i w _
      simp only [List.mem_cons, List.not_mem_nil, or_false] at h
      rcases h with rfl | rfl
      · exact List.suffix_cons (CodePoint.char '>') _
      · exact List.suffix_refl _
    · rw [List.mem_singleton.mp h]
  · obtain ⟨v, hv, h⟩ := List.mem_flatMap.mp h
    refine List.IsSuffix.trans ?_ (suffix_of_mem_shafts hv)
    split at h
    · rename_i w
      exact (suffix_of_mem_optionalChar h).trans (List.suffix_cons (.char '>') w)
    · contradiction

theorem activation?_suffix {mark : Activation} (h : activation? t = some (mark, behind)) :
    behind <:+ t := by
  unfold activation? at h
  split at h
  · obtain ⟨-, rfl⟩ := Prod.mk.inj (Option.some.inj h)
    exact ⟨['+', '+'], rfl⟩
  · obtain ⟨-, rfl⟩ := Prod.mk.inj (Option.some.inj h)
    exact ⟨['-', '-'], rfl⟩
  · contradiction

theorem suffix_of_mem_activations {mark : Activation} (h : (mark, behind) ∈ activations t) :
    behind <:+ t := by
  unfold activations at h
  split at h
  · rename_i answer hmark
    rcases List.mem_cons.mp h with rfl | h
    · exact activation?_suffix hmark
    · rw [(Prod.mk.inj (List.mem_singleton.mp h)).2]
  · rw [(Prod.mk.inj (List.mem_singleton.mp h)).2]

/-! ## Messages -/

namespace Message

/-- How a name at an end of a message stands in its line. -/
inductive StandsIn (line : Text) : Text → Prop
  | inQuotes {name : Text} (h : .char '"' :: (name ++ [.char '"']) <:+: line) : StandsIn line name
  | bare {name : Text} (h : name <:+: line) (hcolon : .char ':' ∉ name) (htrim : Text.Trim name) :
      StandsIn line name

theorem StandsIn.mono (h : StandsIn t name) (ht : t <:+: line) : StandsIn line name := by
  cases h with
  | inQuotes h => exact .inQuotes (h.trans ht)
  | bare h hcolon htrim => exact .bare (h.trans ht) hcolon htrim

theorem StandsIn.subset (h : StandsIn line name) : name ⊆ line := by
  cases h with
  | inQuotes h =>
      intro c hc
      exact h.subset (List.mem_cons_of_mem _ (List.mem_append_left _ hc))
  | bare h => exact h.subset

/-- A name that is all white space, or has a colon, stands in quotes. -/
theorem StandsIn.infix_of_hidden (h : StandsIn line name)
    (hhidden : Text.isBlankText name = true ∨ .char ':' ∈ name) :
    .char '"' :: (name ++ [.char '"']) <:+: line := by
  cases h with
  | inQuotes h => exact h
  | bare _ hcolon htrim =>
      rcases hhidden with hblank | hmem
      · obtain ⟨c, hhead, hc⟩ := htrim.head
        have hmem := List.mem_of_mem_head? hhead
        rw [List.all_eq_true.mp hblank c hmem] at hc
        contradiction
      · exact absurd hmem hcolon

/-- A name is empty, or it stands in the text; what follows is read behind it. -/
theorem exists_of_name? (h : name? next t = some (name, a)) :
    (name ≠ [] → StandsIn t name) ∧ ∃ rest, rest <:+ t ∧ next rest = some a := by
  unfold name? at h
  split at h
  · rename_i body rest hquoted
    obtain ⟨b, hnext, heq⟩ := Option.map_eq_some_iff.mp h
    obtain ⟨rfl, rfl⟩ := Prod.mk.inj heq
    obtain ⟨rfl, -⟩ := Text.quoted?_eq_some hquoted
    exact ⟨fun _ => .inQuotes ⟨[], rest, by simp⟩, rest,
      ⟨.char '"' :: (body ++ [.char '"']), by simp⟩, hnext⟩
  · obtain ⟨⟨raw, b⟩, hfewest, heq⟩ := Option.map_eq_some_iff.mp h
    obtain ⟨rfl, rfl⟩ := Prod.mk.inj heq
    obtain ⟨rest, rfl, hnext, -, hall⟩ := Text.fewestSome_eq_some hfewest
    refine ⟨fun hne => ?_, rest, List.suffix_append raw rest, hnext⟩
    refine .bare ((Text.isInfix_strip raw).trans (List.prefix_append raw rest).isInfix) ?_
      (Text.trim_strip hne)
    intro hmem
    have hchar := List.all_eq_true.mp hall ':' (Text.strip_subset raw hmem)
    exact absurd hchar (by decide)

theorem label?_subset (h : label? t = some label) : label ⊆ t := by
  unfold label? at h
  split at h
  · rw [← Option.some.inj h]
    exact List.nil_subset t
  · rename_i rest hdrop
    obtain ⟨l, hline, rfl⟩ := Option.map_eq_some_iff.mp h
    have hrest : rest ⊆ t := Text.subset_of_dropBlanks_eq hdrop
    have hl : l ⊆ rest := List.Subset.trans (Text.line?_subset hline)
      (Text.dropBlanks_suffix rest).subset
    exact List.Subset.trans (Text.strip_subset l) (List.Subset.trans hl hrest)
  · contradiction

theorem ending?_subset {mark : Activation} (h : ending? t = some (mark, label)) : label ⊆ t := by
  have hplain : (label? t).map (fun label => (Activation.none, label)) = some (mark, label) →
      label ⊆ t := by
    intro h
    obtain ⟨l, hlabel, heq⟩ := Option.map_eq_some_iff.mp h
    rw [← (Prod.mk.inj heq).2]
    exact label?_subset hlabel
  unfold ending? at h
  cases hblanks : Text.afterBlanks? t with
  | none =>
      simp only [hblanks] at h
      exact hplain h
  | some rest =>
      cases hmark : activation? rest with
      | none =>
          simp only [hblanks, hmark] at h
          exact hplain h
      | some found =>
          obtain ⟨activation, behind⟩ := found
          cases hlabel : label? behind with
          | none =>
              simp only [hblanks, hmark, hlabel, Option.map_none] at h
              exact hplain h
          | some l =>
              simp only [hblanks, hmark, hlabel, Option.map_some] at h
              rw [← (Prod.mk.inj (Option.some.inj h)).2]
              exact List.Subset.trans (label?_subset hlabel)
                ((activation?_suffix hmark).trans (Text.afterBlanks?_suffix hblanks)).subset

theorem target?_standsIn {target : Text} {mark : Activation}
    (h : target? t = some (target, mark, label)) :
    (target ≠ [] → StandsIn t target) ∧ label ⊆ t := by
  obtain ⟨rest, hrest, hname⟩ := Text.exists_of_most_eq_some h
  obtain ⟨hstands, behind, hbehind, hending⟩ := exists_of_name? hname
  exact ⟨fun hne => (hstands hne).mono hrest.isInfix,
    List.Subset.trans (ending?_subset hending) (hbehind.trans hrest).subset⟩

theorem arrow?_standsIn {arrow target : Text} {mark : Activation}
    (h : arrow? t = some (arrow, mark, target, label)) :
    (target ≠ [] → StandsIn t target) ∧ label ⊆ t := by
  obtain ⟨⟨arrow', behindArrow⟩, harrow, h⟩ := List.exists_of_findSome?_eq_some h
  obtain ⟨⟨early, behindMark⟩, hmark, h⟩ := List.exists_of_findSome?_eq_some h
  obtain ⟨⟨target', late, label'⟩, htarget, heq⟩ := Option.map_eq_some_iff.mp h
  obtain ⟨-, -, rfl, rfl⟩ := by simpa only [Prod.mk.injEq] using heq
  obtain ⟨end', hend, hsame⟩ := List.mem_map.mp harrow
  obtain ⟨-, rfl⟩ := Prod.mk.inj hsame
  have hsuffix : behindMark <:+ t :=
    (suffix_of_mem_activations hmark).trans
      ((suffix_of_mem_arrowEnds hend).trans (Text.dropBlanks_suffix t))
  obtain ⟨hstands, hlabel⟩ := target?_standsIn htarget
  exact ⟨fun hne => (hstands hne).mono hsuffix.isInfix, List.Subset.trans hlabel hsuffix.subset⟩

/-- Both names of a message stand in its line, and so do the characters of its label. -/
theorem ofLine?_standsIn {m : Message} (h : ofLine? line = some m) :
    StandsIn line m.source ∧ StandsIn line m.target ∧ m.label ⊆ line := by
  unfold ofLine? at h
  split at h
  · contradiction
  · rename_i source arrow activation target label hname
    split at h
    · contradiction
    · -- Empty names are refused, and only an empty name could stand nowhere.
      rename_i hnames
      rw [Bool.or_eq_true, not_or, List.isEmpty_iff, List.isEmpty_iff] at hnames
      obtain rfl := Option.some.inj h
      obtain ⟨hsource, rest, hrest, harrow⟩ := exists_of_name? hname
      obtain ⟨htarget, hlabel⟩ := arrow?_standsIn harrow
      exact ⟨hsource hnames.1, (htarget hnames.2).mono hrest.isInfix,
        List.Subset.trans hlabel hrest.subset⟩

end Message

/-! ## Declarations -/

namespace Declaration

theorem readAlias?_subset {name : Name} (h : readAlias? t = some (name, behind)) :
    name.text ⊆ t := by
  unfold readAlias? at h
  split at h
  · contradiction
  · rename_i word hword
    split at h
    · contradiction
    · rename_i rest hrest
      split at h
      · contradiction
      · rename_i front hfront
        have hsuffix : front <:+ t :=
          (Text.afterBlanks?_suffix hfront).trans
            ((Text.afterKeyword?_suffix hrest).trans (Text.afterBlanks?_suffix hword))
        split at h
        · rename_i body after hquoted
          obtain ⟨rfl, -⟩ := Prod.mk.inj (Option.some.inj h)
          obtain ⟨rfl, -⟩ := Text.quoted?_eq_some hquoted
          intro c hc
          exact hsuffix.subset (List.mem_cons_of_mem _ (List.mem_append_left _ hc))
        · split at h
          · contradiction
          · rename_i body after _ hspan
            obtain ⟨rfl, -⟩ := Prod.mk.inj (Option.some.inj h)
            rw [List.span_eq_takeWhile_dropWhile] at hspan
            rw [← (Prod.mk.inj hspan).1]
            exact List.Subset.trans (List.takeWhile_prefix _).subset hsuffix.subset

theorem ending?_subset {other : Name} (h : ending? t = some (some other)) : other.text ⊆ t := by
  unfold ending? at h
  split at h
  · rename_i name rest halias
    split at h
    · obtain rfl := Option.some.inj (Option.some.inj h)
      exact readAlias?_subset halias
    · contradiction
  · split at h
    · exact absurd (Option.some.inj h) (by simp)
    · contradiction

/-- A bare name is not blank, and the characters of both names are in the text. -/
theorem nameAndEnding?_subset {name : Name} {other? : Option Name}
    (h : nameAndEnding? t = some (name, other?)) :
    name.text ⊆ t ∧ (∀ other, other? = some other → other.text ⊆ t) ∧
      (Text.isBlankText name.text = true → name.inQuotes = true) := by
  unfold nameAndEnding? at h
  split at h
  · contradiction
  · rename_i c rest
    split at h
    · rename_i body behind hquoted
      obtain ⟨found, hending, heq⟩ := Option.map_eq_some_iff.mp h
      obtain ⟨rfl, rfl⟩ := Prod.mk.inj heq
      obtain ⟨htext, -⟩ := Text.quoted?_eq_some hquoted
      have hbehind : behind ⊆ c :: rest := by
        rw [htext]
        exact fun d hd => List.mem_cons_of_mem _
          (List.mem_append_right _ (List.mem_cons_of_mem _ hd))
      refine ⟨?_, ?_, fun _ => rfl⟩
      · rw [htext]
        exact fun d hd => List.mem_cons_of_mem _ (List.mem_append_left _ hd)
      · rintro other rfl
        exact List.Subset.trans (ending?_subset hending) hbehind
    · split at h
      · rename_i hc
        obtain ⟨⟨body, found⟩, hfewest, heq⟩ := Option.map_eq_some_iff.mp h
        obtain ⟨rfl, rfl⟩ := Prod.mk.inj heq
        obtain ⟨behind, rfl, hending, -⟩ := Text.fewest_eq_some hfewest
        refine ⟨?_, ?_, ?_⟩
        · exact List.cons_subset_cons c (List.subset_append_left body behind)
        · rintro other rfl
          exact List.Subset.trans (ending?_subset hending)
            (List.Subset.trans (List.subset_append_right body behind) (List.subset_cons_self c _))
        · -- A bare name begins with a character that is no white space.
          intro hblank
          have hfirst := List.all_eq_true.mp hblank c List.mem_cons_self
          simp [isWordChar, hfirst] at hc
      · contradiction

theorem ofLine?_subset {d : Declaration} (h : ofLine? line = some d) :
    d.name.text ⊆ line ∧ (∀ other, d.otherName? = some other → other.text ⊆ line) ∧
      (Text.isBlankText d.name.text = true → d.name.inQuotes = true) := by
  unfold ofLine? at h
  split at h
  · contradiction
  · rename_i keyword rest hkeyword
    obtain ⟨word, -, hread⟩ := List.exists_of_findSome?_eq_some hkeyword
    obtain ⟨after, hafter, heq⟩ := Option.map_eq_some_iff.mp hread
    obtain ⟨-, rfl⟩ := Prod.mk.inj heq
    split at h
    · contradiction
    · rename_i body hbody
      obtain ⟨⟨name, other?⟩, hname, rfl⟩ := Option.map_eq_some_iff.mp h
      have hsuffix : body <:+ line :=
        (Text.afterBlanks?_suffix hbody).trans (Text.afterKeyword?_suffix hafter)
      obtain ⟨htext, hother, hquotes⟩ := nameAndEnding?_subset hname
      exact ⟨List.Subset.trans htext hsuffix.subset,
        fun other hsome => List.Subset.trans (hother other hsome) hsuffix.subset, hquotes⟩

end Declaration

/-! ## Notes -/

namespace Note

theorem afterNote?_suffix (h : afterNote? t = some behind) : behind <:+ t := by
  unfold afterNote? at h
  split at h
  · contradiction
  · rename_i c rest
    split at h
    · exact (Text.afterKeyword?_suffix h).trans (List.suffix_cons c rest)
    · exact Text.afterKeyword?_suffix h

theorem place?_subset {place written : Text} (h : place? t = some (place, written, behind)) :
    written ⊆ t ∧ behind <:+ t := by
  unfold place? at h
  split at h
  · contradiction
  · rename_i rest hnote
    split at h
    · contradiction
    · rename_i word hword
      have hsuffix : word <:+ t := (Text.afterBlanks?_suffix hword).trans (afterNote?_suffix hnote)
      obtain ⟨⟨found, after⟩, hkeyword, heq⟩ := Option.map_eq_some_iff.mp h
      obtain ⟨rfl, rfl, rfl⟩ := by simpa only [Prod.mk.injEq] using heq
      obtain ⟨keyword, -, hread⟩ := List.exists_of_findSome?_eq_some hkeyword
      obtain ⟨after', hafter, heq⟩ := Option.map_eq_some_iff.mp hread
      obtain ⟨-, rfl⟩ := Prod.mk.inj heq
      exact ⟨List.Subset.trans (List.take_subset _ word) hsuffix.subset,
        (Text.afterKeyword?_suffix hafter).trans hsuffix⟩

theorem exists_of_name? (h : name? next t = some (name, a)) :
    name ⊆ t ∧ ∃ rest, rest <:+ t ∧ next rest = some a := by
  unfold name? at h
  split at h
  · rename_i body rest hquoted
    obtain ⟨b, hnext, heq⟩ := Option.map_eq_some_iff.mp h
    obtain ⟨rfl, rfl⟩ := Prod.mk.inj heq
    obtain ⟨rfl, -⟩ := Text.quoted?_eq_some hquoted
    exact ⟨fun c hc => List.mem_cons_of_mem _ (List.mem_append_left _ hc), rest,
      ⟨.char '"' :: (body ++ [.char '"']), by simp⟩, hnext⟩
  · obtain ⟨⟨raw, b⟩, hfewest, heq⟩ := Option.map_eq_some_iff.mp h
    obtain ⟨rfl, rfl⟩ := Prod.mk.inj heq
    obtain ⟨rest, rfl, hnext, -, -⟩ := Text.fewestSome_eq_some hfewest
    exact ⟨List.Subset.trans (Text.strip_subset raw) (List.subset_append_left raw rest), rest,
      List.suffix_append raw rest, hnext⟩

theorem nonemptyLine?_subset (h : nonemptyLine? t = some u) : u ⊆ t := by
  unfold nonemptyLine? at h
  split at h
  · rename_i c rest hline
    rw [← Option.some.inj h]
    exact List.Subset.trans (Text.strip_subset _) (Text.line?_subset hline)
  · contradiction

theorem text?_subset (h : text? t = some u) : u ⊆ t := by
  unfold text? at h
  split at h
  · rename_i rest hdrop
    obtain ⟨behind, hsuffix, hline⟩ := Text.exists_of_most_eq_some h
    exact List.Subset.trans (nonemptyLine?_subset hline)
      (List.Subset.trans hsuffix.subset (Text.subset_of_dropBlanks_eq hdrop))
  · contradiction

theorem ending?_subset {second? : Option Text} (h : ending? t = some (second?, u)) :
    (∀ second, second? = some second → second ⊆ t) ∧ u ⊆ t := by
  have hplain : (text? t).map (fun text => ((none : Option Text), text)) = some (second?, u) →
      (∀ second, second? = some second → second ⊆ t) ∧ u ⊆ t := by
    intro h
    obtain ⟨text, htext, heq⟩ := Option.map_eq_some_iff.mp h
    obtain ⟨rfl, rfl⟩ := Prod.mk.inj heq
    exact ⟨by simp, text?_subset htext⟩
  unfold ending? at h
  split at h
  · rename_i rest hdrop
    cases hmost : Text.most Text.isBlank (name? text?) rest with
    | none =>
        simp only [hmost, Option.map_none] at h
        exact hplain h
    | some found =>
        obtain ⟨name, text⟩ := found
        simp only [hmost, Option.map_some, Option.some.injEq, Prod.mk.injEq] at h
        obtain ⟨rfl, rfl⟩ := h
        obtain ⟨front, hfront, hname⟩ := Text.exists_of_most_eq_some hmost
        obtain ⟨hsubset, behind, hbehind, htext⟩ := exists_of_name? hname
        have hrest : front ⊆ t := List.Subset.trans hfront.subset
            (Text.subset_of_dropBlanks_eq hdrop)
        refine ⟨?_, List.Subset.trans (text?_subset htext) (List.Subset.trans hbehind.subset hrest)⟩
        rintro second ⟨⟩
        exact List.Subset.trans hsubset hrest
  · exact hplain h

theorem participants?_subset {first : Text} {second? : Option Text}
    (h : participants? t = some (first, second?, u)) :
    first ⊆ t ∧ (∀ second, second? = some second → second ⊆ t) ∧ u ⊆ t := by
  have hread : ∀ front, front <:+ t → name? ending? front = some (first, second?, u) →
      first ⊆ t ∧ (∀ second, second? = some second → second ⊆ t) ∧ u ⊆ t := by
    intro front hfront hname
    obtain ⟨hfirst, behind, hbehind, hending⟩ := exists_of_name? hname
    obtain ⟨hsecond, htext⟩ := ending?_subset hending
    have hrest := (hbehind.trans hfront).subset
    exact ⟨List.Subset.trans hfirst hfront.subset,
      fun second hsome => List.Subset.trans (hsecond second hsome) hrest,
      List.Subset.trans htext hrest⟩
  unfold participants? at h
  split at h
  · rename_i rest hword
    -- With the word `of` or without it, names are read at some place of the text.
    cases hof : Text.mostSome Text.isBlank (name? ending?) rest with
    | none =>
        simp only [hof] at h
        exact hread t (List.suffix_refl t) h
    | some answer =>
        simp only [hof, Option.some.injEq] at h
        obtain ⟨front, hfront, hname⟩ := Text.exists_of_mostSome_eq_some hof
        rw [h] at hname
        exact hread front (hfront.trans (Text.afterKeyword?_suffix hword)) hname
  · exact hread t (List.suffix_refl t) h

/-- The names and the text of a note have the characters of its line.  So has its place,
but for the size of its letters. -/
theorem ofLine?_subset {n : Note} (h : ofLine? line = some n) :
    (∃ written, written ⊆ line ∧ n.place = Text.lower written) ∧ n.first ⊆ line ∧
      (∀ second, n.second? = some second → second ⊆ line) ∧ n.text ⊆ line := by
  unfold ofLine? at h
  split at h
  · contradiction
  · rename_i place written rest hplace
    obtain ⟨⟨first, second?, text⟩, hmost, rfl⟩ := Option.map_eq_some_iff.mp h
    obtain ⟨hwritten, hrest⟩ := place?_subset hplace
    obtain ⟨front, hfront, hread⟩ := Text.exists_of_mostSome_eq_some hmost
    obtain ⟨hfirst, hsecond, htext⟩ := participants?_subset hread
    have hsubset := (hfront.trans hrest).subset
    exact ⟨⟨written, hwritten, rfl⟩, List.Subset.trans hfirst hsubset,
      fun second hsome => List.Subset.trans (hsecond second hsome) hsubset,
      List.Subset.trans htext hsubset⟩

end Note

/-! ## Fragments and titles -/

theorem exists_of_fragment? {word : Text} (h : fragment? line = some (word, behind)) :
    word ∈ fragmentKeywords ∧ ∃ rest, line = word ++ rest ∧ Text.atWordEnd rest = true ∧
      Text.line? (Text.dropBlanks rest) = some behind := by
  unfold fragment? at h
  split at h
  · contradiction
  · rename_i found rest hfound
    obtain ⟨keyword, hkeyword, hread⟩ := List.exists_of_findSome?_eq_some hfound
    obtain ⟨l, hline, heq⟩ := Option.map_eq_some_iff.mp h
    obtain ⟨rfl, rfl⟩ := Prod.mk.inj heq
    split at hread
    · rename_i after hafter
      split at hread
      · rename_i hend
        obtain ⟨rfl, rfl⟩ := Prod.mk.inj (Option.some.inj hread)
        exact ⟨hkeyword, after, Text.after?_eq_some_iff.mp hafter, hend, hline⟩
      · contradiction
    · contradiction

theorem fragment?_subset {word : Text} (h : fragment? line = some (word, behind)) :
    word ∈ fragmentKeywords ∧ behind ⊆ line := by
  obtain ⟨hkeyword, rest, rfl, -, hline⟩ := exists_of_fragment? h
  exact ⟨hkeyword, List.Subset.trans (Text.line?_subset hline)
    ((Text.dropBlanks_suffix rest).trans (List.suffix_append word rest)).subset⟩

theorem title?_subset {title : Text} (h : title? line = some title) : title ⊆ line := by
  unfold title? at h
  split at h
  · contradiction
  · rename_i rest hword
    obtain ⟨body, hbody, rfl⟩ := Option.map_eq_some_iff.mp h
    exact List.Subset.trans (Text.strip_subset body)
      ((Text.afterBlanks?_suffix hbody).trans (Text.afterKeyword?_suffix hword)).subset

end Lifeline.PlantUml
