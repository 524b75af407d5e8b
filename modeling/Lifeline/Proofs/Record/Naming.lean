import Lifeline.Proofs.Text.Names
import Lifeline.Record

/-!
# The name of a diagram

A diagram is named by the first of its lines that names anything.  What a line names is told
here without the reader: a line that begins with `title` names what follows, and any other line
names the first participant that it announces, wherever in the line.

A title therefore wins against everything behind it.  It loses against a participant that is
announced before it, and against an earlier line that begins with `title` and goes on without
white space.
-/

namespace Lifeline.Record

open Text

variable {today code line t word other caption name : Text}
variable {ls front before behind : List Text}

/-! ## Participants that a line announces -/

/-- A text begins with `participant`, white space and a whole word. -/
def Announces (t word : Text) : Prop :=
  ∃ gap rest, t = "participant".toText ++ (gap ++ (word ++ rest)) ∧
    isBlankText gap = true ∧ gap ≠ [] ∧ IsName word ∧ atWordEnd rest = true

theorem exists_participantHere?_iff :
    (∃ rest, participantHere? t = some (word, rest)) ↔ Announces t word := by
  constructor
  · rintro ⟨rest, h⟩
    unfold participantHere? at h
    split at h
    · contradiction
    · rename_i behind hbehind
      split at h
      · contradiction
      · rename_i start hstart
        obtain ⟨gap, rfl, hgap, hne⟩ := exists_of_afterBlanks? hstart
        obtain ⟨rfl, hword, hrest⟩ := word?_eq_some_iff.mp h
        exact ⟨gap, rest, after?_eq_some_iff.mp hbehind, hgap, hne, hword, hrest⟩
  · rintro ⟨gap, rest, rfl, hgap, hne, hword, hrest⟩
    have hstart : dropBlanks (word ++ rest) = word ++ rest := by
      obtain ⟨c, w, rfl⟩ := List.exists_cons_of_ne_nil hword.ne_nil
      exact dropBlanks_cons_of_not_isBlank _
        (isBlank_of_isWord (hword.isWord c List.mem_cons_self))
    refine ⟨rest, ?_⟩
    simp only [participantHere?, after?_eq_some_iff.mpr rfl, afterBlanks?_append hgap hne, hstart]
    exact word?_eq_some_iff.mpr ⟨rfl, hword, hrest⟩

/-- A word is announced in a line, and no announcement stands further to the front. -/
def Mentions (line word : Text) : Prop :=
  ∃ front t, line = front ++ t ∧ Announces t word ∧
    ∀ front' t' word', line = front' ++ t' → Announces t' word' → front.length ≤ front'.length

theorem not_announces_nil : ¬ Announces [] word := by
  rintro ⟨gap, rest, h, -⟩
  exact List.cons_ne_nil _ _ h.symm

theorem mentions_of_announces (h : Announces t word) : Mentions t word :=
  ⟨[], t, rfl, h, fun _ _ _ _ _ => Nat.zero_le _⟩

/-- A line whose beginning announces nothing mentions what its rest mentions. -/
theorem mentions_cons_iff {c : CodePoint} (h : ∀ word, ¬ Announces (c :: t) word) :
    Mentions (c :: t) word ↔ Mentions t word := by
  constructor
  · rintro ⟨front, u, hline, hword, hfirst⟩
    cases front with
    | nil =>
        rw [List.nil_append] at hline
        exact absurd (hline ▸ hword) (h word)
    | cons d front =>
        obtain ⟨rfl, rfl⟩ := List.cons.inj hline
        refine ⟨front, u, rfl, hword, fun front' u' word' hline' hword' => ?_⟩
        exact Nat.le_of_succ_le_succ
          (hfirst (c :: front') u' word' (congrArg (c :: ·) hline') hword')
  · rintro ⟨front, u, rfl, hword, hfirst⟩
    refine ⟨c :: front, u, rfl, hword, fun front' u' word' hline' hword' => ?_⟩
    cases front' with
    | nil =>
        rw [List.nil_append] at hline'
        exact absurd (hline' ▸ hword') (h word')
    | cons d front' =>
        exact Nat.succ_le_succ (hfirst front' u' word' (List.cons.inj hline').2 hword')

theorem not_mentions_nil : ¬ Mentions [] word := by
  rintro ⟨front, t, hline, hword, -⟩
  obtain ⟨-, rfl⟩ := List.nil_eq_append_iff.mp hline
  exact not_announces_nil hword

/-- When a line begins with an announcement, then this is what it mentions. -/
theorem Mentions.announces (h : Mentions t word) (hhere : Announces t other) :
    Announces t word := by
  obtain ⟨front, u, rfl, hword, hfirst⟩ := h
  have hfront : front = [] :=
    List.eq_nil_of_length_eq_zero (Nat.le_zero.mp (hfirst [] (front ++ u) other rfl hhere))
  rwa [hfront]

/-- The search from left to right finds what stands furthest to the front. -/
theorem participantIn?_eq_some_iff : participantIn? line = some word ↔ Mentions line word := by
  -- A line mentions what it announces at its start, or else what is mentioned behind it.
  induction line with
  | nil => exact iff_of_false (fun h => Option.some_ne_none word h.symm) not_mentions_nil
  | cons c line ih =>
      rw [participantIn?]
      cases hhere : participantHere? (c :: line) with
      | none =>
          have hnone : ∀ word, ¬ Announces (c :: line) word := by
            intro word hword
            obtain ⟨rest, hread⟩ := exists_participantHere?_iff.mpr hword
            rw [hhere] at hread
            contradiction
          exact ih.trans (mentions_cons_iff hnone).symm
      | some read =>
          obtain ⟨first, rest⟩ := read
          have hfirst : Announces (c :: line) first :=
            exists_participantHere?_iff.mp ⟨rest, hhere⟩
          constructor
          · intro h
            obtain rfl := Option.some.inj h
            exact mentions_of_announces hfirst
          · intro h
            obtain ⟨rest', hread⟩ := exists_participantHere?_iff.mpr (h.announces hfirst)
            rw [hhere] at hread
            obtain ⟨rfl, -⟩ := Prod.mk.inj (Option.some.inj hread)
            rfl

/-! ## What a line names -/

/-- What a line names: a title, or else the participant that it mentions. -/
inductive Names (line : Text) : Text → Prop where
  | title {rest : Text} (h : strip line = "title".toText ++ rest) : Names line (strip rest)
  | participant {word : Text} (hplain : ¬ "title".toText <+: strip line)
      (h : Mentions (strip line) word) : Names line ("Diagram - ".toText ++ word)

/-- A line that names nothing. -/
def Silent (line : Text) : Prop :=
  ∀ name, ¬ Names line name

theorem lineName?_eq_some_iff : lineName? (strip line) = some name ↔ Names line name := by
  cases htitle : after? "title".toText (strip line) with
  | some rest =>
      have hline := after?_eq_some_iff.mp htitle
      simp only [lineName?, htitle, Option.some.injEq]
      constructor
      · rintro rfl
        exact .title hline
      · rintro (⟨hline'⟩ | ⟨hplain, -⟩)
        · rw [List.append_cancel_left (hline.symm.trans hline')]
        · exact absurd ⟨rest, hline.symm⟩ hplain
  | none =>
      have hplain : ¬ "title".toText <+: strip line := by
        rintro ⟨rest, hline⟩
        rw [after?_eq_some_iff.mpr hline.symm] at htitle
        contradiction
      simp only [lineName?, htitle, Option.map_eq_some_iff, participantIn?_eq_some_iff]
      constructor
      · rintro ⟨word, hword, rfl⟩
        exact .participant hplain hword
      · rintro (⟨hline⟩ | ⟨-, hword⟩)
        · exact absurd ⟨_, hline.symm⟩ hplain
        · exact ⟨_, hword, rfl⟩

theorem lineName?_eq_none_iff : lineName? (strip line) = none ↔ Silent line := by
  rw [Option.eq_none_iff_forall_ne_some]
  exact forall_congr' fun name => not_congr lineName?_eq_some_iff

/-! ## What the lines name -/

/-- The first line that names anything names this. -/
def FirstNames (ls : List Text) (name : Text) : Prop :=
  ∃ front line back, ls = front ++ line :: back ∧ Names line name ∧ ∀ l ∈ front, Silent l

theorem findSome?_lineName?_eq_some_iff :
    ls.findSome? (fun line => lineName? (strip line)) = some name ↔ FirstNames ls name := by
  simp only [List.findSome?_eq_some_iff, lineName?_eq_some_iff, lineName?_eq_none_iff, FirstNames]

theorem findSome?_lineName?_eq_none_iff :
    ls.findSome? (fun line => lineName? (strip line)) = none ↔ ∀ line ∈ ls, Silent line := by
  simp only [List.findSome?_eq_none_iff, lineName?_eq_none_iff]

/-- A diagram has the name of its first line that names anything, or else the day's. -/
theorem nameOf_eq_iff :
    nameOf today code = name ↔ FirstNames (lines code) name ∨
      (∀ line ∈ lines code, Silent line) ∧ "Diagram - ".toText ++ today = name := by
  rw [nameOf, ← findSome?_lineName?_eq_some_iff, ← findSome?_lineName?_eq_none_iff]
  cases (lines code).findSome? (fun line => lineName? (strip line)) with
  | some first => simp
  | none => simp

-- The word `title` is not asked to end where it is found.
example : nameOf [] "titlebar->>X: hi\ntitle Checkout".toText = "bar->>X: hi".toText := by decide

/-! ## Titles -/

/-- A line with a title: the word, white space, and the caption behind it. -/
def Titled (line caption : Text) : Prop :=
  ∃ gap rest, strip line = "title".toText ++ (gap ++ rest) ∧ isBlankText gap = true ∧ gap ≠ [] ∧
    rest ≠ [] ∧ caption = strip rest

theorem Titled.names (h : Titled line caption) : Names line caption := by
  obtain ⟨gap, rest, hline, hgap, -, -, rfl⟩ := h
  have hcaption : strip rest = strip (gap ++ rest) := by
    rw [← strip_dropBlanks (gap ++ rest), dropBlanks_append_of_blank hgap, strip_dropBlanks]
  rw [hcaption]
  exact .title hline

theorem firstNames_append_iff :
    FirstNames (front ++ ls) name ↔ FirstNames front name ∨
      (∀ line ∈ front, Silent line) ∧ FirstNames ls name := by
  simp only [← findSome?_lineName?_eq_some_iff, ← findSome?_lineName?_eq_none_iff,
    List.findSome?_append]
  cases front.findSome? (fun line => lineName? (strip line)) with
  | some first => simp
  | none => simp

theorem firstNames_cons_of_names (h : Names line caption) :
    FirstNames (line :: ls) name ↔ caption = name := by
  rw [← findSome?_lineName?_eq_some_iff, List.findSome?_cons, lineName?_eq_some_iff.mpr h,
    Option.some.injEq]

/-- A title names the diagram, whatever stands behind it, when the lines before it are silent.
Otherwise the first of them that names anything wins. -/
theorem nameOf_eq_iff_of_titled (today : Text) (hcode : lines code = before ++ line :: behind)
    (htitled : Titled line caption) (name : Text) :
    nameOf today code = name ↔
      FirstNames before name ∨ (∀ l ∈ before, Silent l) ∧ caption = name := by
  have hloud : ¬ ∀ l ∈ lines code, Silent l := by
    intro hsilent
    have hline : line ∈ lines code := by
      rw [hcode]
      exact List.mem_append_right before List.mem_cons_self
    exact hsilent line hline caption htitled.names
  rw [nameOf_eq_iff, or_iff_left fun h => hloud h.1, hcode, firstNames_append_iff,
    firstNames_cons_of_names htitled.names]

/-- A message before the title and a participant behind it. -/
theorem nameOf_eq_iff_of_titled_between :
    nameOf "2024-01-01".toText "A->>B: x\n title  Check out\nparticipant A".toText =
      "Check out".toText := by
  have hcode : lines "A->>B: x\n title  Check out\nparticipant A".toText =
      ["A->>B: x".toText] ++ " title  Check out".toText :: ["participant A".toText] := by decide
  have htitled : Titled " title  Check out".toText "Check out".toText :=
    ⟨"  ".toText, "Check out".toText, by decide, by decide, by decide, by decide, by decide⟩
  have hsilent : ∀ l ∈ ["A->>B: x".toText], Silent l :=
    List.forall_mem_singleton.mpr (lineName?_eq_none_iff.mp (by decide))
  exact (nameOf_eq_iff_of_titled _ hcode htitled _).mpr (Or.inr ⟨hsilent, rfl⟩)

/-- A participant that is announced before the first title names the diagram. -/
theorem nameOf_ignores_title :
    ¬ ∀ today code before line behind caption, lines code = before ++ line :: behind →
        Titled line caption → (∀ l ∈ before, ∀ other, ¬ Titled l other) →
        nameOf today code = caption := by
  intro h
  have htitled : Titled "title Checkout".toText "Checkout".toText :=
    ⟨" ".toText, "Checkout".toText, by decide, by decide, by decide, by decide, by decide⟩
  have hfirst : ∀ l ∈ ["participant A".toText], ∀ other, ¬ Titled l other := by
    refine List.forall_mem_singleton.mpr fun other hother => ?_
    obtain ⟨gap, rest, hline, -⟩ := hother
    have hprefix : "title".toText <+: strip "participant A".toText := ⟨_, hline.symm⟩
    exact absurd hprefix (by decide)
  have hname := h "2024-01-01".toText "participant A\ntitle Checkout".toText
    ["participant A".toText] _ [] _ (by decide) htitled hfirst
  exact absurd hname (by decide)

end Lifeline.Record
