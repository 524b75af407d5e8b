import Lifeline.Proofs.Share.Expansion

/-!
# Shortened texts

`substitute` works through the table of shortcuts with one replacement after another, and each
of them sees what the ones before have written.  Still the long forms are gone for good: a
long form has no tilde in it and begins with no mark, so it never lies across a token, and no
replacement makes one that was not there.  For the same reasons no replacement takes a token
away.  So one replacement keeps everything that matters about the others
(`infix_of_replaced`, `short_infix_of_replaced`), and the whole table leaves a text that it
does not change any more (`substitute_shortens`).
-/

namespace Lifeline.Share.Shortcut

open Text (Replaced replaceAll replaceAll_append replaceAll_cons replaceAll_eq_self
  replaceAll_induction replaced_replaceAll)

variable {table shortcuts : List Shortcut} {s r : Shortcut} {t u word : Text}

/-! ## One replacement -/

/-- A beginning without a tilde lies in front of the first token that was written. -/
theorem prefix_of_replaced (h : Separated table) (hs : s ∈ table) (hword : .char '~' ∉ word)
    (hreplaced : Replaced s.full s.short t u) (hbegins : word <+: u) : word <+: t := by
  induction hreplaced generalizing word with
  | nil => exact hbegins
  | keep c hrest ih =>
      cases word with
      | nil => exact List.nil_prefix
      | cons b word =>
          obtain ⟨rfl, hbehind⟩ := List.cons_prefix_cons.mp hbegins
          have hinside : .char '~' ∉ word := fun hmem => hword (List.mem_cons_of_mem b hmem)
          exact List.cons_prefix_cons.mpr ⟨rfl, ih hinside hbehind⟩
  | swap hrest ih =>
      cases word with
      | nil => exact List.nil_prefix
      | cons b word =>
          rw [h.short_eq s hs, List.cons_append] at hbegins
          obtain ⟨rfl, -⟩ := List.cons_prefix_cons.mp hbegins
          exact absurd List.mem_cons_self hword

/-- A word that has no tilde and begins with no mark does not touch a token. -/
theorem infix_of_short_append (h : Separated table) (hs : s ∈ table) (hword : .char '~' ∉ word)
    (hmark : word.head? ≠ some s.mark) (hinside : word <:+: s.short ++ u) : word <:+: u := by
  cases word with
  | nil => exact List.nil_infix
  | cons b word =>
      rw [h.short_eq s hs, List.cons_append, List.singleton_append] at hinside
      rcases List.infix_cons_iff.mp hinside with htilde | hinside
      · obtain ⟨rfl, -⟩ := List.cons_prefix_cons.mp htilde
        exact absurd List.mem_cons_self hword
      · rcases List.infix_cons_iff.mp hinside with hhead | hbehind
        · obtain ⟨rfl, -⟩ := List.cons_prefix_cons.mp hhead
          exact absurd rfl hmark
        · exact hbehind

/-- A replacement makes no word that has no tilde and begins with no mark. -/
theorem infix_of_replaced (h : Separated table) (hs : s ∈ table) (hword : .char '~' ∉ word)
    (hmark : word.head? ≠ some s.mark) (hreplaced : Replaced s.full s.short t u)
    (hinside : word <:+: u) : word <:+: t := by
  induction hreplaced with
  | nil => exact hinside
  | keep c hrest ih =>
      rcases List.infix_cons_iff.mp hinside with hhere | hbehind
      · exact (prefix_of_replaced h hs hword (hrest.keep c) hhere).isInfix
      · exact List.infix_cons (ih hbehind)
  | swap hrest ih =>
      have hbehind := ih (infix_of_short_append h hs hword hmark hinside)
      exact hbehind.trans (List.suffix_append s.full _).isInfix

/-- The long form that is replaced is not found any more. -/
theorem not_infix_replaceAll (h : Separated table) (hs : s ∈ table) (t : Text) :
    ¬ s.full <:+: replaceAll s.full s.short t := by
  have hfull : s.full ≠ [] := h.full_ne_nil s hs
  induction t using replaceAll_induction hfull with
  | nil => exact fun hinside => hfull (List.infix_nil.mp hinside)
  | occurrence rest ih =>
      rw [replaceAll_append hfull]
      exact fun hinside => ih
        (infix_of_short_append h hs (h.tilde_notMem s hs) (h.head_ne_mark s hs s hs) hinside)
  | character c rest hhere ih =>
      intro hinside
      rw [replaceAll_cons hhere] at hinside
      rcases List.infix_cons_iff.mp hinside with hbegins | hbehind
      · exact hhere (prefix_of_replaced h hs (h.tilde_notMem s hs)
          ((replaced_replaceAll hfull rest).keep c) hbegins)
      · exact ih hbehind

/-- A replacement that has no mark in front keeps the first character. -/
theorem head?_of_replaced (h : Separated table) (hs : s ∈ table) (hr : r ∈ table)
    (hreplaced : Replaced s.full s.short t u) (hhead : t.head? = some r.mark) :
    u.head? = some r.mark := by
  cases hreplaced with
  | nil => exact hhead
  | keep c hrest => exact hhead
  | swap hrest =>
      rw [List.head?_append_of_ne_nil _ (h.full_ne_nil s hs)] at hhead
      exact absurd hhead (h.head_ne_mark s hs r hr)

/-- A replacement leaves the tokens where they are. -/
theorem short_infix_of_replaced (h : Separated table) (hs : s ∈ table) (hr : r ∈ table)
    (hreplaced : Replaced s.full s.short t u) (hinside : r.short <:+: t) : r.short <:+: u := by
  rw [h.short_eq r hr] at hinside ⊢
  induction hreplaced with
  | nil => exact hinside
  | keep c hrest ih =>
      rcases List.infix_cons_iff.mp hinside with hhere | hbehind
      · obtain ⟨rfl, rest, rfl⟩ := List.cons_prefix_cons.mp hhere
        obtain ⟨v, rfl⟩ := List.head?_eq_some_iff.mp (head?_of_replaced h hs hr hrest rfl)
        exact ⟨[], v, rfl⟩
      · exact List.infix_cons (ih hbehind)
  | swap hrest ih =>
      -- A long form has no tilde, so the token lies behind it.
      have hbehind := ih (infix_of_infix_append (h.tilde_notMem s hs) hinside)
      exact hbehind.trans (List.suffix_append s.short _).isInfix

/-! ## All replacements -/

/-- What every replacement keeps, all of them together keep. -/
theorem foldl_replaceAll_induction {P : Text → Prop}
    (hstep : ∀ s ∈ shortcuts, ∀ u, P u → P (replaceAll s.full s.short u)) (ht : P t) :
    P (shortcuts.foldl (fun u s => replaceAll s.full s.short u) t) :=
  List.foldlRecOn shortcuts _ ht fun u hu s hs => hstep s hs u hu

/-- A long form goes with its own replacement and does not come back with a later one. -/
theorem not_infix_substitute (hs : s ∈ Shortcut.table) (t : Text) : ¬ s.full <:+: substitute t := by
  have h := separated_table
  obtain ⟨before, behind, htable⟩ := List.append_of_mem hs
  rw [substitute, htable, List.foldl_append, List.foldl_cons]
  apply foldl_replaceAll_induction (P := fun u => ¬ s.full <:+: u)
  · intro r hr u hu hinside
    have hr' : r ∈ Shortcut.table := htable ▸ by simp [hr]
    exact hu (infix_of_replaced h hr' (h.tilde_notMem s hs) (h.head_ne_mark s hs r hr')
      (replaced_replaceAll (h.full_ne_nil r hr') u) hinside)
  · exact not_infix_replaceAll h hs _

theorem short_infix_substitute (hr : r ∈ Shortcut.table) (hinside : r.short <:+: t) :
    r.short <:+: substitute t := by
  have h := separated_table
  apply foldl_replaceAll_induction (P := fun u => r.short <:+: u) _ hinside
  intro s hs u hu
  exact short_infix_of_replaced h hs hr (replaced_replaceAll (h.full_ne_nil s hs) u) hu

theorem length_short_le_full : ∀ s ∈ Shortcut.table, s.short.length ≤ s.full.length := by
  decide

theorem length_substitute_le (t : Text) : (substitute t).length ≤ t.length := by
  apply foldl_replaceAll_induction (P := fun u => u.length ≤ t.length) _ (Nat.le_refl t.length)
  intro s hs u hu
  have hreplaced : Replaced s.full s.short u (replaceAll s.full s.short u) :=
    replaced_replaceAll (separated_table.full_ne_nil s hs) u
  exact Nat.le_trans (hreplaced.length_le (length_short_le_full s hs)) hu

theorem substitute_eq_self (ht : ∀ s ∈ Shortcut.table, ¬ s.full <:+: t) : substitute t = t := by
  apply foldl_replaceAll_induction (P := fun u => u = t) _ rfl
  rintro s hs u rfl
  exact replaceAll_eq_self (ht s hs)

/-- A shortened text has no long form of the table in it, is not longer than the text, and still
has all the tokens that the text had.  It is not changed by shortening it again; the texts that
stay are those without long forms. -/
theorem substitute_shortens (t : Text) :
    (∀ s ∈ Shortcut.table, ¬ s.full <:+: substitute t) ∧
      (substitute t).length ≤ t.length ∧
      (∀ s ∈ Shortcut.table, s.short <:+: t → s.short <:+: substitute t) ∧
      substitute (substitute t) = substitute t ∧
      (substitute t = t ↔ ∀ s ∈ Shortcut.table, ¬ s.full <:+: t) := by
  have hgone : ∀ s ∈ Shortcut.table, ¬ s.full <:+: substitute t :=
    fun s hs => not_infix_substitute hs t
  refine ⟨hgone, length_substitute_le t, fun s hs => short_infix_substitute hs,
    substitute_eq_self hgone, fun hstays => ?_, substitute_eq_self⟩
  rwa [hstays] at hgone

/-- Long forms that overlap themselves and each other, and a token that was there before. -/
theorem substitute_shortens_overlapping :
    ¬ "else".toText <:+: substitute "~S elselse deactivate-->>>".toText ∧
      ¬ "activate".toText <:+: substitute "~S elselse deactivate-->>>".toText ∧
      "~S".toText <:+: substitute "~S elselse deactivate-->>>".toText := by
  obtain ⟨hgone, -, htokens, -⟩ := substitute_shortens "~S elselse deactivate-->>>".toText
  refine ⟨?_, ?_, ?_⟩
  · exact hgone ⟨"else".toText, "~E".toText⟩ (by decide)
  · exact hgone ⟨"activate".toText, "~V".toText⟩ (by decide)
  · exact htokens ⟨"sequenceDiagram".toText, "~S".toText⟩ (by decide) ⟨[], _, rfl⟩

end Lifeline.Share.Shortcut
