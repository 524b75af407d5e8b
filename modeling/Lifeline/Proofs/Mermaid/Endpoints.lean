import Lifeline.Proofs.Mermaid.Concatenation

/-!
# The ends and the arrow of a message

Each message of an outline comes from a line that is cut at an arrow in front of its
first colon.  Its source is a participant of the outline, and so is its target, unless
there is nothing but white space where the target should stand.

The arrow is the longest one that begins at its place, with one exception.  An arrow with
two heads that stands right before the colon has no target behind it; it is then read as
the arrow with one head, and the other head as the target.
-/

namespace Lifeline.Mermaid

variable {line t arrow target text rest : Text} {m : Message} {known ps : List Participant}
  {p : Participant} {name : Text} {s : Step} {cut : Cut}

/-- A line that is cut at an arrow in front of its first colon. -/
structure Cut where
  source : Text
  /-- The white space in front of the arrow. -/
  gap : Text
  arrow : Text
  /-- What stands between the arrow and the colon. -/
  behind : Text
  label : Text

/-- What stands between an arrow and the colon, without a sign that belongs to the arrow. -/
def withoutSign : Text → Text
  | sign :: c :: rest => if sign = '+' ∨ sign = '-' then c :: rest else sign :: c :: rest
  | t => t

namespace Cut

/-- The line from its arrow on. -/
def fromArrow (cut : Cut) : Text :=
  cut.arrow ++ (cut.behind ++ .char ':' :: cut.label)

/-- The message on a line that is cut so. -/
def message (cut : Cut) : Message :=
  ⟨Text.strip cut.source, Text.strip (withoutSign cut.behind), Text.strip cut.label,
    (Text.after? "--".toText cut.arrow).isSome⟩

/-- The reader of messages cuts a line so. -/
structure OfLine (cut : Cut) (line : Text) : Prop where
  line_eq : line = cut.source ++ (cut.gap ++ cut.fromArrow)
  isBlankText_gap : Text.isBlankText cut.gap = true
  arrow_mem : cut.arrow ∈ arrows
  behind_ne_nil : cut.behind ≠ []
  colon_notMem : .char ':' ∉ cut.behind
  read : Text.fewestSome (· ≠ ':') behindSource? line =
    some (cut.source, cut.arrow, cut.message.target, cut.message.text)

/-- No longer arrow begins where the arrow stands. -/
def IsLongest (cut : Cut) : Prop :=
  ∀ other ∈ arrows, other <+: cut.fromArrow → other.length ≤ cut.arrow.length

/-- One of the two heads of an arrow is all that there is for a target. -/
def TakesHead (cut : Cut) : Prop :=
  cut.behind = [.char '>'] ∧ cut.arrow ++ [.char '>'] ∈ arrows

end Cut

/-! ## Behind the arrow -/

theorem targetAndText?_eq_some (h : targetAndText? t = some (target, text)) :
    ∃ front label, t = front ++ .char ':' :: label ∧ front ≠ [] ∧ .char ':' ∉ front ∧
      target = Text.strip front ∧ text = Text.strip label := by
  obtain ⟨front, label, rfl, hne, hcolon⟩ := exists_of_targetAndText? h
  rw [targetAndText?_append hne hcolon] at h
  obtain ⟨rfl, rfl⟩ := Prod.mk.inj (Option.some.inj h)
  exact ⟨front, label, rfl, hne, hcolon, rfl, rfl⟩

theorem withoutSign_cons {sign : CodePoint} {front : Text}
    (hsign : sign = .char '+' ∨ sign = .char '-')
    (hne : front ≠ []) : withoutSign (sign :: front) = front := by
  obtain ⟨c, front, rfl⟩ := List.exists_cons_of_ne_nil hne
  rw [withoutSign, if_pos hsign]

theorem withoutSign_of_ne {sign : CodePoint} (hsign : ¬ (sign = '+' ∨ sign = '-')) (front : Text) :
    withoutSign (sign :: front) = sign :: front := by
  cases front with
  | nil => rfl
  | cons c front => rw [withoutSign, if_neg hsign]

/-- Behind an arrow stands the target, with a sign in front of it or not, up to the colon. -/
theorem behindArrow?_eq_some (h : behindArrow? t = some (target, text)) :
    ∃ front label, t = front ++ .char ':' :: label ∧ front ≠ [] ∧ .char ':' ∉ front ∧
      target = Text.strip (withoutSign front) ∧ text = Text.strip label := by
  cases t with
  | nil => contradiction
  | cons c rest =>
      rw [behindArrow?] at h
      split at h
      · rename_i hsign
        have hc : ':' ≠ c := by
          rintro rfl
          exact absurd hsign (by decide)
        split at h
        · rename_i answer hrest
          obtain rfl := Option.some.inj h
          obtain ⟨front, label, rfl, hne, hcolon, rfl, rfl⟩ := targetAndText?_eq_some hrest
          refine ⟨c :: front, label, rfl, List.cons_ne_nil c front, ?_, ?_, rfl⟩
          · rw [List.mem_cons, not_or]
            exact ⟨hc, hcolon⟩
          · rw [withoutSign_cons hsign hne]
        · -- Nothing stands between the sign and the colon, so the sign is the target.
          rename_i hrest
          obtain ⟨front, label, hcut, hne, hcolon, rfl, rfl⟩ := targetAndText?_eq_some h
          obtain ⟨d, front, rfl⟩ := List.exists_cons_of_ne_nil hne
          have htail : rest = front ++ .char ':' :: label := (List.cons.inj hcut).2
          refine ⟨d :: front, label, hcut, hne, hcolon, ?_, rfl⟩
          cases front with
          | nil => rfl
          | cons b front =>
              rw [htail, targetAndText?_append (List.cons_ne_nil b front)
                fun hmem => hcolon (List.mem_cons_of_mem d hmem)] at hrest
              contradiction
      · rename_i hsign
        obtain ⟨front, label, hcut, hne, hcolon, rfl, rfl⟩ := targetAndText?_eq_some h
        refine ⟨front, label, hcut, hne, hcolon, ?_, rfl⟩
        obtain ⟨d, front, rfl⟩ := List.exists_cons_of_ne_nil hne
        obtain ⟨rfl, -⟩ := List.cons.inj hcut
        rw [withoutSign_of_ne hsign]

/-! ## The choice of the arrow -/

/-- An arrow stands in the list before those that it goes on from. -/
theorem arrows_longestFirst :
    arrows.Pairwise fun first later => ¬ (first <+: later ∧ first ≠ later) := by
  decide

/-- The reader has gone past the arrows that go on from the one it stops at. -/
theorem mem_earlier_of_longer {earlier later : List Text} {other : Text}
    (hsplit : arrows = earlier ++ arrow :: later) (hother : other ∈ arrows)
    (hbegins : arrow <+: other) (hne : arrow ≠ other) : other ∈ earlier := by
  have hordered := arrows_longestFirst
  rw [hsplit] at hordered hother
  rcases List.mem_append.mp hother with hearlier | hmem
  · exact hearlier
  · rcases List.mem_cons.mp hmem with rfl | hlater
    · exact absurd rfl hne
    · have hbehind := (List.pairwise_append.mp hordered).2.1
      exact absurd ⟨hbegins, hne⟩ ((List.pairwise_cons.mp hbehind).1 other hlater)

/-- An arrow that goes on from another one has a second head. -/
theorem eq_append_head {other : Text} (harrow : arrow ∈ arrows) (hother : other ∈ arrows)
    (hbegins : arrow <+: other) (hne : arrow ≠ other) : other = arrow ++ [.char '>'] := by
  have hall : ∀ arrow ∈ arrows, ∀ other ∈ arrows, arrow <+: other → arrow ≠ other →
      other = arrow ++ [.char '>'] := by decide
  exact hall arrow harrow other hother hbegins hne

/-- What is read behind a source, and that no arrow which goes on from the one that was
found could be read there. -/
theorem behindSource?_eq_some (h : behindSource? t = some (arrow, target, text)) :
    arrow ∈ arrows ∧ (∃ rest, Text.dropBlanks t = arrow ++ rest ∧
        behindArrow? rest = some (target, text)) ∧
      ∀ other ∈ arrows, arrow <+: other → arrow ≠ other → ∀ rest,
        Text.dropBlanks t = other ++ rest → behindArrow? rest = none := by
  obtain ⟨earlier, found, later, hsplit, hfound, hearlier⟩ := List.findSome?_eq_some_iff.mp h
  cases hafter : Text.after? found (Text.dropBlanks t) with
  | none => simp [hafter] at hfound
  | some rest =>
      simp only [hafter, Option.map_eq_some_iff] at hfound
      obtain ⟨⟨target', text'⟩, hread, heq⟩ := hfound
      obtain ⟨rfl, rfl, rfl⟩ : found = arrow ∧ target' = target ∧ text' = text := by
        simpa using heq
      have hmem : found ∈ arrows := by
        rw [hsplit]
        simp
      refine ⟨hmem, ⟨rest, Text.after?_eq_some_iff.mp hafter, hread⟩, ?_⟩
      intro other hother hbegins hne behind hbehind
      have hnone := hearlier other (mem_earlier_of_longer hsplit hother hbegins hne)
      simpa [Text.after?_eq_some_iff.mpr hbehind] using hnone

/-- Every message line is cut at an arrow, and the message is read off the parts. -/
theorem exists_cut (h : message? line = some m) :
    ∃ cut : Cut, cut.OfLine line ∧ cut.message = m := by
  obtain ⟨⟨source, arrow, target, text⟩, hfewest, rfl⟩ := Option.map_eq_some_iff.mp h
  obtain ⟨behind, rfl, hsource, -, -⟩ := Text.fewestSome_eq_some hfewest
  obtain ⟨harrow, ⟨rest, hrest, hread⟩, -⟩ := behindSource?_eq_some hsource
  obtain ⟨front, label, rfl, hne, hcolon, rfl, rfl⟩ := behindArrow?_eq_some hread
  have hgap : behind = behind.takeWhile Text.isBlank ++
      (arrow ++ (front ++ .char ':' :: label)) := by
    rw [← hrest]
    exact List.takeWhile_append_dropWhile.symm
  refine ⟨⟨source, behind.takeWhile Text.isBlank, arrow, front, label⟩,
    ⟨congrArg (source ++ ·) hgap, ?_, harrow, hne, hcolon, hfewest⟩, rfl⟩
  exact List.all_eq_true.mpr fun c hc => List.mem_takeWhile_imp hc

namespace Cut

/-- A longer arrow where the arrow stands has nothing behind it that could be a target. -/
theorem OfLine.longer_declined {other : Text} (h : cut.OfLine line) (hother : other ∈ arrows)
    (hbegins : cut.arrow <+: other) (hne : cut.arrow ≠ other)
    (hrest : cut.fromArrow = other ++ rest) : behindArrow? rest = none := by
  obtain ⟨behind, hline, hsource, -, -⟩ := Text.fewestSome_eq_some h.read
  have hbehind : behind = cut.gap ++ cut.fromArrow :=
    List.append_cancel_left (hline.symm.trans h.line_eq)
  have hdrop : Text.dropBlanks behind = cut.fromArrow := by
    rw [hbehind, Text.dropBlanks_append_of_blank h.isBlankText_gap]
    exact dropBlanks_arrow h.arrow_mem _
  exact (behindSource?_eq_some hsource).2.2 other hother hbegins hne rest (hdrop.trans hrest)

theorem not_isLongest_of_takesHead (h : cut.TakesHead) : ¬ cut.IsLongest := by
  obtain ⟨hhead, hother⟩ := h
  intro hlongest
  have hhere : cut.arrow ++ [.char '>'] <+: cut.fromArrow :=
    ⟨.char ':' :: cut.label, by rw [fromArrow, hhead, List.append_assoc]⟩
  have hlength := hlongest _ hother hhere
  rw [List.length_append, List.length_singleton] at hlength
  omega

/-- Where a longer arrow was not read, its second head is all that stands before the colon. -/
theorem OfLine.takesHead_of_longer {other : Text} (h : cut.OfLine line) (hother : other ∈ arrows)
    (hbegins : cut.arrow <+: other) (hne : cut.arrow ≠ other) (hhere : other <+: cut.fromArrow) :
    cut.TakesHead := by
  obtain ⟨rest, hrest⟩ := hhere
  have hdeclined := h.longer_declined hother hbegins hne hrest.symm
  obtain rfl := eq_append_head h.arrow_mem hother hbegins hne
  have hbehind : cut.behind ++ .char ':' :: cut.label = .char '>' :: rest := by
    rw [fromArrow, List.append_assoc] at hrest
    exact (List.append_cancel_left hrest).symm
  obtain ⟨c, more, hcons⟩ := List.exists_cons_of_ne_nil h.behind_ne_nil
  rw [hcons, List.cons_append] at hbehind
  obtain ⟨rfl, rfl⟩ := List.cons.inj hbehind
  by_cases hmore : more = []
  · exact ⟨by rw [hcons, hmore], hother⟩
  · -- There is more in front of the colon, so the longer arrow would have been read.
    have hcolon : .char ':' ∉ more := by
      intro hmem
      exact h.colon_notMem (by rw [hcons]; exact List.mem_cons_of_mem _ hmem)
    obtain ⟨answer, hanswer⟩ := exists_behindArrow? hmore hcolon cut.label
    rw [hanswer] at hdeclined
    contradiction

/-- The arrow is the longest at its place unless one of its heads stands in for a target. -/
theorem OfLine.isLongest_iff (h : cut.OfLine line) : cut.IsLongest ↔ ¬ cut.TakesHead := by
  refine ⟨fun hlongest hhead => not_isLongest_of_takesHead hhead hlongest, ?_⟩
  intro hhead other hother hhere
  by_contra hlength
  have hbegins : cut.arrow <+: other :=
    List.prefix_of_prefix_length_le (List.prefix_append _ _) hhere (by omega)
  have hne : cut.arrow ≠ other := by
    intro hsame
    exact hlength (by rw [hsame])
  exact hhead (h.takesHead_of_longer hother hbegins hne hhere)

/-- A trimmed line does not begin with white space, and its source does not either. -/
theorem OfLine.source_ne_nil (h : cut.OfLine line) (hline : Text.strip line = line)
    (hne : line ≠ []) : cut.message.source ≠ [] := by
  obtain ⟨-, -, -, hsource, -⟩ := Text.fewestSome_eq_some h.read
  obtain ⟨c, source, hcons⟩ := List.exists_cons_of_ne_nil hsource
  have htrim : Text.Trim line := by
    rw [← hline]
    exact Text.trim_strip (by rwa [hline])
  obtain ⟨d, hhead, hd⟩ := htrim.head
  rw [h.line_eq, hcons, List.cons_append, List.head?_cons, Option.some.injEq] at hhead
  intro hnil
  have hblank := Text.strip_eq_nil_iff.mp hnil
  rw [hcons, Text.isBlankText, List.all_cons, hhead, hd, Bool.false_and] at hblank
  contradiction

end Cut

/-! ## Participants -/

theorem mem_names_addParticipant :
    name ∈ names (addParticipant known p) ↔ name ∈ names known ∨ name = p.name ∧ name ≠ [] := by
  by_cases hskip : p.name = [] ∨ p.name ∈ names known
  · rw [addParticipant_of_known hskip]
    refine ⟨Or.inl, ?_⟩
    rintro (hknown | ⟨rfl, hne⟩)
    · exact hknown
    · exact hskip.resolve_left hne
  · obtain ⟨hne, hnew⟩ := not_or.mp hskip
    rw [addParticipant_of_new hne hnew, mem_names_append]
    refine or_congr_right ?_
    rw [names, List.map_singleton, List.mem_singleton]
    exact ⟨fun h => ⟨h, h ▸ hne⟩, fun h => h.1⟩

/-- The participants of an outline have the names that are mentioned, except for the empty
one. -/
theorem mem_names_foldl :
    name ∈ names (ps.foldl addParticipant known) ↔
      name ∈ names known ∨ name ∈ names ps ∧ name ≠ [] := by
  induction ps generalizing known with
  | nil => simp [names]
  | cons p ps ih =>
      have hcons : name ∈ names (p :: ps) ↔ name = p.name ∨ name ∈ names ps := List.mem_cons
      rw [List.foldl_cons, ih, mem_names_addParticipant, hcons]
      tauto

/-! ## Messages -/

theorem ofLine_eq_message (h : LineKind.ofLine line = .message m) :
    message? line = some m ∧ line ≠ [] := by
  unfold LineKind.ofLine at h
  split at h
  · contradiction
  · rename_i hsolid
    split at h
    · contradiction
    · split at h
      · rename_i found hmessage
        obtain rfl := LineKind.message.inj h
        exact ⟨hmessage, by simpa using hsolid⟩
      · split at h <;> contradiction

theorem message_mem_of_mem_numberedFrom {index : Nat} {ms : List Message}
    (h : s ∈ numberedFrom index ms) : s.message ∈ ms := by
  induction ms generalizing index with
  | nil => contradiction
  | cons m ms ih =>
      rcases List.mem_cons.mp h with rfl | h
      · exact List.mem_cons_self
      · exact List.mem_cons_of_mem m (ih h)

theorem exists_line_of_mem_messages (h : m ∈ messages t) :
    ∃ line ∈ PlantUml.trimmedLines t, LineKind.ofLine line = .message m := by
  obtain ⟨kind, hkind, hmessage⟩ := List.mem_filterMap.mp h
  obtain ⟨line, hline, rfl⟩ := List.mem_map.mp hkind
  refine ⟨line, hline, ?_⟩
  cases hof : LineKind.ofLine line with
  | message found =>
      rw [hof] at hmessage
      rw [Option.some.inj hmessage]
  | blank => simp [hof, LineKind.message?] at hmessage
  | declaration p => simp [hof, LineKind.message?] at hmessage
  | structural => simp [hof, LineKind.message?] at hmessage
  | unrecognized => simp [hof, LineKind.message?] at hmessage

/-- The ends of a message are participants, unless they have no name. -/
theorem mem_names_participants (h : m ∈ messages t) (hname : name = m.source ∨ name = m.target) :
    name ∈ names (participants t) ↔ name ≠ [] := by
  obtain ⟨line, hline, hkind⟩ := exists_line_of_mem_messages h
  rw [participants, mem_names_foldl]
  have hmentioned : name ∈ names ((lineKinds t).flatMap LineKind.mentions) := by
    refine List.mem_map.mpr ⟨⟨name, none, false⟩, ?_, rfl⟩
    refine List.mem_flatMap.mpr ⟨_, List.mem_map_of_mem hline, ?_⟩
    rw [hkind, LineKind.mentions]
    rcases hname with rfl | rfl
    · exact List.mem_cons_self
    · exact List.mem_cons_of_mem _ List.mem_cons_self
  exact ⟨fun h => (h.resolve_left List.not_mem_nil).2, fun hne => Or.inr ⟨hmentioned, hne⟩⟩

/-- The ends of every message of an outline are listed and the arrow in between is read as
the longest one at its place, with two exceptions: a target of white space has no name and
is not listed, and an arrow with two heads right before the colon is read as one with one
head. -/
theorem outline_ends_of_step (t : Text) : ∀ s ∈ (outline t).steps,
    ∃ line ∈ PlantUml.trimmedLines t, ∃ cut : Cut, cut.OfLine line ∧ cut.message = s.message ∧
      s.message.source ≠ [] ∧ s.message.source ∈ names (outline t).participants ∧
      (s.message.target ∈ names (outline t).participants ↔ s.message.target ≠ []) ∧
      (s.message.target = [] ↔ Text.isBlankText (withoutSign cut.behind) = true) ∧
      (cut.IsLongest ↔ ¬ cut.TakesHead) := by
  intro s hs
  have hmem : s.message ∈ messages t := message_mem_of_mem_numberedFrom hs
  obtain ⟨line, hline, hkind⟩ := exists_line_of_mem_messages hmem
  obtain ⟨hmessage, hne⟩ := ofLine_eq_message hkind
  obtain ⟨cut, hcut, heq⟩ := exists_cut hmessage
  have htrim : Text.strip line = line := by
    obtain ⟨raw, -, rfl⟩ := List.mem_map.mp hline
    exact Text.strip_strip raw
  have hsource : s.message.source ≠ [] := heq ▸ hcut.source_ne_nil htrim hne
  refine ⟨line, hline, cut, hcut, heq, hsource, ?_, ?_, ?_, hcut.isLongest_iff⟩
  · exact (mem_names_participants hmem (Or.inl rfl)).mpr hsource
  · exact mem_names_participants hmem (Or.inr rfl)
  · rw [← heq]
    exact Text.strip_eq_nil_iff

/-- An arrow with two heads right before the colon, and a target of white space. -/
def headlessDiagram : Text :=
  "A-->>:x\nA->> : y".toText

theorem outline_ends_of_step_headless :
    ⟨0, ⟨['A'], ['>'], ['x'], true⟩⟩ ∈ (outline headlessDiagram).steps ∧
      ∃ line ∈ PlantUml.trimmedLines headlessDiagram, ∃ cut : Cut, cut.OfLine line ∧
        cut.message = ⟨[.char 'A'], [.char '>'], [.char 'x'], true⟩ ∧ [.char 'A'] ≠ ([] : Text) ∧
        [.char 'A'] ∈ names (outline headlessDiagram).participants ∧
        ([.char '>'] ∈ names (outline headlessDiagram).participants ↔ [.char '>'] ≠ ([] : Text)) ∧
        ([.char '>'] = ([] : Text) ↔ Text.isBlankText (withoutSign cut.behind) = true) ∧
        (cut.IsLongest ↔ ¬ cut.TakesHead) := by
  have hmem : ⟨0, ⟨[.char 'A'], [.char '>'], [.char 'x'], true⟩⟩ ∈
      (outline headlessDiagram).steps := by decide
  exact ⟨hmem, outline_ends_of_step headlessDiagram _ hmem⟩

/-- The first message goes to the second head of its arrow, and the second one to nobody. -/
theorem outline_headless :
    outline headlessDiagram =
        ⟨[⟨['A'], none, false⟩, ⟨['>'], none, false⟩],
          [⟨0, ⟨['A'], ['>'], ['x'], true⟩⟩, ⟨1, ⟨['A'], [], ['y'], false⟩⟩]⟩ ∧
      ∃ cut : Cut, cut.OfLine "A-->>:x".toText ∧ cut.message = ⟨['A'], ['>'], ['x'], true⟩ ∧
        ¬ cut.IsLongest := by
  have hcut : Cut.OfLine ⟨['A'], [], "-->".toText, ['>'], ['x']⟩ "A-->>:x".toText :=
    ⟨rfl, rfl, by decide, by decide, by decide, rfl⟩
  refine ⟨rfl, _, hcut, rfl, fun hlongest => ?_⟩
  have hlength := hlongest "-->>".toText (by decide) ⟨":x".toText, rfl⟩
  exact absurd hlength (by decide)

end Lifeline.Mermaid
