import Lifeline.Proofs.Text.Replacement
import Lifeline.Share.Shortcut
import Mathlib.Data.List.Nodup

/-!
# Expanding tokens in one pass

`restore` works through the table of shortcuts with one replacement after
another.  The marks of the tokens are kept apart from the beginnings of the
long forms, so no replacement makes a token or takes one away, and all of them
together are one pass over the text, `expand`.  It follows that

* a text without tokens is the only kind of text that `restore` leaves alone,
  and everything it gives is of that kind;
* writing a token in place of its long form, as `substitute` does, is not seen
  by `restore` at all.
-/

namespace Lifeline.Share.Shortcut

open Text (Replaced replaceAll replaceAll_append replaceAll_cons replaced_replaceAll)

/-- The second character of a token. -/
def mark (s : Shortcut) : CodePoint :=
  s.short.getD 1 '~'

/-- The tokens of a table can be told from each other and from everything
around them: no mark is a tilde or begins a long form, and no long form holds a
tilde. -/
structure Separated (table : List Shortcut) : Prop where
  short_eq : ∀ s ∈ table, s.short = [.char '~', s.mark]
  mark_ne_tilde : ∀ s ∈ table, s.mark ≠ '~'
  full_ne_nil : ∀ s ∈ table, s.full ≠ []
  tilde_notMem : ∀ s ∈ table, .char '~' ∉ s.full
  head_ne_mark : ∀ s ∈ table, ∀ r ∈ table, s.full.head? ≠ some r.mark
  nodup_shorts : (table.map Shortcut.short).Nodup

/-- The long form of the token made of two characters. -/
def fullOf? (table : List Shortcut) (c d : CodePoint) : Option Text :=
  (table.find? fun s => s.short == [c, d]).map Shortcut.full

/-- Replaces every token by its long form in one pass from left to right. -/
def expand (table : List Shortcut) : Text → Text
  | [] => []
  | [c] => [c]
  | c :: d :: rest =>
      match fullOf? table c d with
      | some full => full ++ expand table rest
      | none => c :: expand table (d :: rest)

variable {table : List Shortcut} {s : Shortcut} {c d : CodePoint} {t u : Text}

/-! ## Looking up a token -/

theorem fullOf?_eq_none_iff : fullOf? table c d = none ↔ ∀ s ∈ table, s.short ≠ [c, d] := by
  simp [fullOf?]

theorem exists_of_fullOf?_eq_some {full : Text} (h : fullOf? table c d = some full) :
    ∃ s ∈ table, s.short = [c, d] ∧ s.full = full := by
  obtain ⟨s, hfind, hfull⟩ := Option.map_eq_some_iff.mp h
  exact ⟨s, List.mem_of_find?_eq_some hfind, by simpa using List.find?_some hfind, hfull⟩

theorem fullOf?_eq_some (hnodup : (table.map Shortcut.short).Nodup) (hs : s ∈ table)
    (hshort : s.short = [c, d]) : fullOf? table c d = some s.full := by
  cases hfind : fullOf? table c d with
  | none => exact absurd hshort (fullOf?_eq_none_iff.mp hfind s hs)
  | some full =>
      obtain ⟨r, hr, hrshort, rfl⟩ := exists_of_fullOf?_eq_some hfind
      have hsame : r = s := List.inj_on_of_nodup_map hnodup hr hs (hrshort.trans hshort.symm)
      rw [hsame]

theorem fullOf?_eq_none_of_ne_tilde (h : Separated table) (hc : c ≠ '~') :
    fullOf? table c d = none := by
  rw [fullOf?_eq_none_iff]
  intro s hs hshort
  rw [h.short_eq s hs] at hshort
  exact hc (List.cons.inj hshort).1.symm

theorem Separated.of_cons (h : Separated (s :: table)) : Separated table where
  short_eq r hr := h.short_eq r (List.mem_cons_of_mem s hr)
  mark_ne_tilde r hr := h.mark_ne_tilde r (List.mem_cons_of_mem s hr)
  full_ne_nil r hr := h.full_ne_nil r (List.mem_cons_of_mem s hr)
  tilde_notMem r hr := h.tilde_notMem r (List.mem_cons_of_mem s hr)
  head_ne_mark r hr r' hr' :=
    h.head_ne_mark r (List.mem_cons_of_mem s hr) r' (List.mem_cons_of_mem s hr')
  nodup_shorts := (List.nodup_cons.mp h.nodup_shorts).2

/-! ## How `expand` meets the pieces of a text -/

/-- A character that begins no token stays. -/
theorem expand_cons (hcut : ∀ d, t.head? = some d → fullOf? table c d = none) :
    expand table (c :: t) = c :: expand table t := by
  cases t with
  | nil => rfl
  | cons d rest => rw [expand, hcut d rfl]

theorem expand_cons_of_ne_tilde (h : Separated table) (hc : c ≠ '~') :
    expand table (c :: t) = c :: expand table t :=
  expand_cons fun _ _ => fullOf?_eq_none_of_ne_tilde h hc

/-- Expansion stops at a place where no mark follows. -/
theorem expand_append (h : Separated table) (hcut : ∀ s ∈ table, u.head? ≠ some s.mark) :
    expand table (t ++ u) = expand table t ++ expand table u := by
  induction t using expand.induct table with
  | case1 => rfl
  | case2 c =>
      apply expand_cons
      intro d hd
      rw [fullOf?_eq_none_iff]
      intro s hs hshort
      rw [h.short_eq s hs] at hshort
      obtain ⟨-, hmark⟩ : '~' = c ∧ s.mark = d := by simpa using hshort
      exact hcut s hs (hmark ▸ hd)
  | case3 c d rest full hfull ih =>
      simp only [List.cons_append, expand, hfull, List.append_assoc, ih]
  | case4 c d rest hnone ih =>
      rw [List.cons_append] at ih
      simp only [List.cons_append, expand, hnone, ih]

/-- A text without tildes stays, whatever follows it. -/
theorem expand_append_of_tilde_notMem (h : Separated table) (ht : .char '~' ∉ t) :
    expand table (t ++ u) = t ++ expand table u := by
  induction t with
  | nil => rfl
  | cons c t ih =>
      simp only [List.mem_cons, not_or] at ht
      obtain ⟨hc, ht⟩ := ht
      rw [List.cons_append, expand_cons_of_ne_tilde h (Ne.symm hc), ih ht, List.cons_append]

/-- A token becomes its long form, whatever follows it. -/
theorem expand_short_append (h : Separated table) (hs : s ∈ table) :
    expand table (s.short ++ t) = s.full ++ expand table t := by
  have hshort := h.short_eq s hs
  rw [hshort, List.cons_append, List.singleton_append, expand,
    fullOf?_eq_some h.nodup_shorts hs hshort]

/-- An expanded text begins as the text does, or as a long form. -/
theorem head?_expand_ne {m : CodePoint} (h : Separated table)
    (hfull : ∀ s ∈ table, s.full.head? ≠ some m) (ht : t.head? ≠ some m) :
    (expand table t).head? ≠ some m := by
  cases t with
  | nil => exact ht
  | cons c t =>
      cases t with
      | nil => exact ht
      | cons d rest =>
          rw [expand]
          cases hfind : fullOf? table c d with
          | none => exact ht
          | some full =>
              obtain ⟨s, hs, -, rfl⟩ := exists_of_fullOf?_eq_some hfind
              obtain ⟨x, xs, hx⟩ := List.exists_cons_of_ne_nil (h.full_ne_nil s hs)
              have hhead := hfull s hs
              rw [hx] at hhead
              simpa [hx] using hhead

/-! ## One replacement after another -/

/-- A replacement passes over a text without tildes. -/
theorem replaceAll_append_of_tilde_notMem {m : CodePoint} {new : Text} (ht : .char '~' ∉ t) :
    replaceAll ['~', m] new (t ++ u) = t ++ replaceAll ['~', m] new u := by
  induction t with
  | nil => rfl
  | cons c t ih =>
      simp only [List.mem_cons, not_or] at ht
      obtain ⟨hc, ht⟩ := ht
      have hprefix : ¬ [.char '~', m] <+: c :: (t ++ u) :=
        fun hp => hc (List.cons_prefix_cons.mp hp).1
      rw [List.cons_append, replaceAll_cons hprefix, ih ht, List.cons_append]

/-- Replacing one more token after an expansion adds it to the table. -/
theorem replaceAll_expand (h : Separated (s :: table)) (t : Text) :
    replaceAll s.short s.full (expand table t) = expand (s :: table) t := by
  have hrest := h.of_cons
  have hs : s ∈ s :: table := List.mem_cons_self
  have hshort := h.short_eq s hs
  -- By the cases of the expansion: a token of the table, or a character that begins none.
  induction t using expand.induct table with
  | case1 => rfl
  | case2 c =>
      have hprefix : ¬ s.short <+: [c] := by
        intro hp
        have hlength := hp.length_le
        rw [hshort] at hlength
        simp at hlength
      rw [expand, expand, replaceAll_cons hprefix]
      rfl
  | case3 c d rest full hfull ih =>
      obtain ⟨r, hr, hrshort, rfl⟩ := exists_of_fullOf?_eq_some hfull
      have hr' : r ∈ s :: table := List.mem_cons_of_mem s hr
      have hfull' := fullOf?_eq_some h.nodup_shorts hr' hrshort
      simp only [expand, hfull, hfull']
      rw [← ih, hshort, replaceAll_append_of_tilde_notMem (h.tilde_notMem r hr')]
  | case4 c d rest hnone ih =>
      simp only [expand, hnone]
      by_cases htoken : s.short = [c, d]
      · -- The token of `s` stands here; the expansion before has left it alone.
        have hd : d ≠ '~' := by
          have hmark := h.mark_ne_tilde s hs
          simpa [mark, htoken] using hmark
        have hprefix : ¬ s.short <+: d :: expand table rest := by
          rw [hshort]
          exact fun hp => hd (List.cons_prefix_cons.mp hp).1.symm
        rw [expand_cons_of_ne_tilde hrest hd, replaceAll_cons hprefix,
          expand_cons_of_ne_tilde h hd] at ih
        have hold : s.short ≠ [] := by simp [htoken]
        have hhere : c :: d :: expand table rest = s.short ++ expand table rest := by
          simp [htoken]
        rw [fullOf?_eq_some h.nodup_shorts hs htoken, expand_cons_of_ne_tilde hrest hd, hhere,
          replaceAll_append hold, (List.cons.inj ih).2]
      · have hnone' : fullOf? (s :: table) c d = none := by
          rw [fullOf?_eq_none_iff] at hnone ⊢
          simpa [htoken] using hnone
        have hprefix : ¬ s.short <+: c :: expand table (d :: rest) := by
          rw [hshort]
          intro hp
          obtain ⟨hc, hmark⟩ := List.cons_prefix_cons.mp hp
          have hhead : (expand table (d :: rest)).head? ≠ some s.mark := by
            apply head?_expand_ne hrest
            · exact fun r hr => h.head_ne_mark r (List.mem_cons_of_mem s hr) s hs
            · intro hd
              rw [List.head?_cons, Option.some.injEq] at hd
              exact htoken (by rw [hshort, hc, hd])
          obtain ⟨v, hv⟩ := hmark
          exact hhead (by rw [← hv]; rfl)
        rw [hnone', replaceAll_cons hprefix, ih]

/-- Replacing the tokens of a table one after another, from the last to the
first, is one pass. -/
theorem foldr_replaceAll_eq_expand (h : Separated table) (t : Text) :
    table.foldr (fun s u => replaceAll s.short s.full u) t = expand table t := by
  induction table with
  | nil =>
      induction t with
      | nil => rfl
      | cons c t ih => rw [expand_cons fun _ _ => rfl, ← ih]; rfl
  | cons s table ih => rw [List.foldr_cons, ih h.of_cons, replaceAll_expand h]

/-! ## Tokens in an expanded text -/

/-- A token inside a text whose beginning has no tilde lies behind the
beginning. -/
theorem infix_of_infix_append {m : CodePoint} (ht : .char '~' ∉ t)
    (h : [.char '~', m] <:+: t ++ u) :
    [.char '~', m] <:+: u := by
  induction t with
  | nil => exact h
  | cons c t ih =>
      simp only [List.mem_cons, not_or] at ht
      obtain ⟨hc, ht⟩ := ht
      rcases List.infix_cons_iff.mp h with hp | hi
      · exact absurd (List.cons_prefix_cons.mp hp).1 hc
      · exact ih ht hi

/-- No token is left in an expanded text, and none is made. -/
theorem not_infix_expand (h : Separated table) (hs : s ∈ table) (t : Text) :
    ¬ s.short <:+: expand table t := by
  have hshort := h.short_eq s hs
  rw [hshort]
  -- An occurrence would begin at the first character or behind it.
  induction t using expand.induct table with
  | case1 => simp [expand]
  | case2 c =>
      intro hi
      have hlength := hi.length_le
      simp [expand] at hlength
  | case3 c d rest full hfull ih =>
      obtain ⟨r, hr, -, rfl⟩ := exists_of_fullOf?_eq_some hfull
      simp only [expand, hfull]
      exact fun hi => ih (infix_of_infix_append (h.tilde_notMem r hr) hi)
  | case4 c d rest hnone ih =>
      simp only [expand, hnone]
      intro hi
      rcases List.infix_cons_iff.mp hi with hp | hi
      · -- A token at this place would end with the head of what follows.
        obtain ⟨rfl, hmark⟩ := List.cons_prefix_cons.mp hp
        have hhead : (expand table (d :: rest)).head? ≠ some s.mark := by
          apply head?_expand_ne h
          · exact fun r hr => h.head_ne_mark r hr s hs
          · intro hd
            rw [List.head?_cons, Option.some.injEq] at hd
            exact fullOf?_eq_none_iff.mp hnone s hs (by rw [hshort, hd])
        obtain ⟨v, hv⟩ := hmark
        exact hhead (by rw [← hv]; rfl)
      · exact ih hi

/-- The texts that stay are those without tokens. -/
theorem expand_eq_self_iff (h : Separated table) :
    expand table t = t ↔ ∀ s ∈ table, ¬ s.short <:+: t := by
  constructor
  · intro hstays s hs
    rw [← hstays]
    exact not_infix_expand h hs t
  · intro hno
    induction t using expand.induct table with
    | case1 => rfl
    | case2 c => rfl
    | case3 c d rest full hfull ih =>
        obtain ⟨s, hs, hshort, -⟩ := exists_of_fullOf?_eq_some hfull
        exact absurd ⟨[], rest, by simp [hshort]⟩ (hno s hs)
    | case4 c d rest hnone ih =>
        simp only [expand, hnone]
        rw [ih fun s hs hi => hno s hs (List.infix_cons hi)]

/-! ## Expanding after a substitution -/

/-- Long forms and their tokens expand alike. -/
theorem expand_append_of_replaced (h : Separated table) (hs : s ∈ table)
    (hreplaced : Replaced s.full s.short t u) (front : Text) :
    expand table (front ++ u) = expand table (front ++ t) := by
  induction hreplaced generalizing front with
  | nil => rfl
  | keep c hrest ih =>
      -- The character goes to the front, where it may begin a token with what stands before it.
      have hfront := ih (front ++ [c])
      simpa using hfront
  | @swap t u hrest ih =>
      have hfullcut : ∀ r ∈ table, (s.full ++ t).head? ≠ some r.mark := by
        intro r hr
        obtain ⟨x, xs, hx⟩ := List.exists_cons_of_ne_nil (h.full_ne_nil s hs)
        have hhead := h.head_ne_mark s hs r hr
        rw [hx] at hhead
        simpa [hx] using hhead
      have hshortcut : ∀ r ∈ table, (s.short ++ u).head? ≠ some r.mark := by
        intro r hr hhead
        rw [h.short_eq s hs] at hhead
        exact h.mark_ne_tilde r hr (Option.some.inj hhead).symm
      have hbehind : expand table u = expand table t := ih []
      calc expand table (front ++ (s.short ++ u))
          = expand table front ++ (s.full ++ expand table u) := by
            rw [expand_append h hshortcut, expand_short_append h hs]
        _ = expand table front ++ (s.full ++ expand table t) := by rw [hbehind]
        _ = expand table (front ++ (s.full ++ t)) := by
            rw [expand_append h hfullcut, expand_append_of_tilde_notMem h (h.tilde_notMem s hs)]

theorem expand_replaceAll_full (h : Separated table) (hs : s ∈ table) (t : Text) :
    expand table (replaceAll s.full s.short t) = expand table t :=
  expand_append_of_replaced h hs (replaced_replaceAll (h.full_ne_nil s hs) t) []

/-! ## The table of shortcuts -/

theorem separated_table : Separated Shortcut.table where
  short_eq := by decide
  mark_ne_tilde := by decide
  full_ne_nil := by decide
  tilde_notMem := by decide
  head_ne_mark := by decide
  nodup_shorts := by decide

theorem restore_eq_expand (t : Text) : restore t = expand Shortcut.table t :=
  foldr_replaceAll_eq_expand separated_table t

theorem hasToken_eq_false_iff : hasToken t = false ↔ ∀ s ∈ Shortcut.table, ¬ s.short <:+: t := by
  rw [hasToken, List.any_eq_false]
  simp only [Text.contains_eq_true_iff]

/-- The texts that `restore` leaves alone are those without tokens. -/
theorem restore_eq_self_iff : restore t = t ↔ hasToken t = false := by
  rw [restore_eq_expand, expand_eq_self_iff separated_table, hasToken_eq_false_iff]

/-- `restore` gives a text without tokens, whatever it is given. -/
theorem hasToken_restore (t : Text) : hasToken (restore t) = false := by
  rw [hasToken_eq_false_iff, restore_eq_expand]
  exact fun _ hs => not_infix_expand separated_table hs t

theorem restore_substitute (t : Text) : restore (substitute t) = restore t := by
  -- The fold runs over a part of the table, while the expansion is that of the whole table.
  have hfold : ∀ shortcuts : List Shortcut, (∀ s ∈ shortcuts, s ∈ Shortcut.table) → ∀ u,
      expand Shortcut.table (shortcuts.foldl (fun v s => replaceAll s.full s.short v) u) =
        expand Shortcut.table u := by
    intro shortcuts
    induction shortcuts with
    | nil => exact fun _ _ => rfl
    | cons s shortcuts ih =>
        intro hall u
        rw [List.foldl_cons, ih fun r hr => hall r (List.mem_cons_of_mem s hr)]
        exact expand_replaceAll_full separated_table (hall s List.mem_cons_self) u
  rw [restore_eq_expand, restore_eq_expand]
  exact hfold Shortcut.table (fun _ hs => hs) t

/-- Restoring a shortened text gives what restoring the text itself gives.  This
is the text itself for the texts without tokens, and for no others. -/
theorem restore_substitute_eq_self_iff (t : Text) :
    restore (substitute t) = restore t ∧
      (restore t = t ↔ hasToken t = false) ∧
      (restore (substitute t) = t ↔ hasToken t = false) := by
  refine ⟨restore_substitute t, restore_eq_self_iff, ?_⟩
  rw [restore_substitute]
  exact restore_eq_self_iff

end Lifeline.Share.Shortcut
