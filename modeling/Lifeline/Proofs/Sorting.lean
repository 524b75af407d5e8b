import Lifeline.Proofs.Sorting.Merge

/-!
# Sorting sorts, and keeps the order of tied elements

A list is cut into runs, each of which is the sorted front of what was left, and
the runs are merged in pairs that stand one behind the other.  Every step leaves
what the runs hold together an arrangement of the list (`Arranges`), so that the
last run is what sorting the list comes to.  Which runs are merged first, how
long they are, and with what patience, plays no part in this.

All this holds for an order that compares any two elements of the list.
-/

namespace Lifeline.Sorting

variable {α : Type} {less? : α → α → Option Bool} {p : α → Prop} {x last : α}
  {l run front news : List α} {falling : Bool} {least fuel size depth patience : Nat}

/-! ## Cutting runs -/

/-- An element is put into a run behind those that it does not go before. -/
theorem exists_place?_eq (horder : Orders less? p) (hl : IsRun less? p l) (hx : p x) :
    ∃ l', place? less? x l = some l' ∧ SortsTo less? p (l ++ [x]) l' := by
  obtain ⟨front, back, rfl, hsplits⟩ := horder.splits_atMost hl hx
  refine ⟨front ++ x :: back, ?_, ?_, ?_⟩
  · simp only [place?, countByHalving?_eq hsplits, Option.map_some, List.take_left, List.drop_left]
  · have hswap : Arranges less? p (back ++ [x]) ([x] ++ back) :=
      .swap horder hl.of_append_right.mem (by simpa using hx)
        (by simpa using hsplits.less_eq_true)
    rw [List.append_assoc]
    exact (Arranges.refl front).append hswap
  · obtain ⟨hfront, hback, hacross⟩ := rising_append_iff.mp hl.rising
    have hbehind : ∀ b ∈ back, less? b x = some false := fun b hb =>
      horder.asymm hx (hl.of_append_right.mem b hb) (hsplits.less_eq_true b hb)
    refine rising_append_iff.mpr ⟨hfront, List.pairwise_cons.mpr ⟨hbehind, hback⟩, ?_⟩
    intro a ha b hb
    rcases List.mem_cons.mp hb with rfl | hb
    · exact hsplits.less_eq_false a ha
    · exact hacross a ha b hb

theorem exists_placeAll?_eq (horder : Orders less? p) (hl : IsRun less? p l)
    (hnews : ∀ x ∈ news, p x) :
    ∃ l', placeAll? less? news l = some l' ∧ SortsTo less? p (l ++ news) l' := by
  induction news generalizing l with
  | nil => exact ⟨l, rfl, by simpa using SortsTo.of_rising hl.rising⟩
  | cons x news ih =>
      obtain ⟨hx, hnews'⟩ := List.forall_mem_cons.mp hnews
      obtain ⟨l₁, hplace, hsorts⟩ := exists_place?_eq horder hl hx
      have hl₁ : IsRun less? p l₁ :=
        hsorts.isRun (List.forall_mem_append.mpr ⟨hl.mem, by simpa using hx⟩)
      obtain ⟨l₂, hplaceAll, hsorts'⟩ := ih hl₁ hnews'
      refine ⟨l₂, by rw [placeAll?, hplace]; exact hplaceAll, hsorts'.of_arranges ?_⟩
      simpa using hsorts.toArranges.append (.refl news)

/-- What holds between neighbours of a rising or falling run holds of any two
elements of it. -/
theorem Orders.trans_of_eq {a b c : α} (h : Orders less? p) (ha : p a) (hb : p b) (hc : p c)
    (hab : less? b a = some falling) (hbc : less? c b = some falling) :
    less? c a = some falling := by
  cases falling with
  | true => exact h.trans_right hc hb ha hbc (h.asymm hb ha hab)
  | false => exact h.trans ha hb hc hab hbc

/-- A run is continued as long as its elements rise or fall. -/
theorem exists_continueRun?_eq (horder : Orders less? p) (falling : Bool) (hlast : p last)
    (hl : ∀ x ∈ l, p x) :
    ∃ run others, continueRun? less? falling last l = some (run, others) ∧ l = run ++ others ∧
      (last :: run).Pairwise fun a b => less? b a = some falling := by
  induction l generalizing last with
  | nil => exact ⟨[], [], rfl, rfl, List.pairwise_singleton _ _⟩
  | cons x rest ih =>
      obtain ⟨hx, hrest⟩ := List.forall_mem_cons.mp hl
      obtain ⟨answer, hanswer⟩ := horder.compares hx hlast
      by_cases hgoes : answer = falling
      · obtain ⟨run, others, hcontinue, rfl, hrun⟩ := ih hx hrest
        refine ⟨x :: run, others, ?_, rfl, ?_⟩
        · simp only [continueRun?, hanswer, if_pos hgoes, hcontinue, Option.map_some]
        · rw [hgoes] at hanswer
          refine List.pairwise_cons.mpr ⟨List.forall_mem_cons.mpr ⟨hanswer, ?_⟩, hrun⟩
          intro y hy
          exact horder.trans_of_eq hlast hx (hrest y (List.mem_append_left _ hy)) hanswer
            ((List.pairwise_cons.mp hrun).1 y hy)
      -- The first element that turns back ends the run.
      · refine ⟨[], x :: rest, ?_, rfl, List.pairwise_singleton _ _⟩
        simp only [continueRun?, hanswer, if_neg hgoes]

/-- A stretch that rises or falls throughout is sorted when it is turned round in
the latter case. -/
theorem sortsTo_of_pairwise (horder : Orders less? p) (hl : ∀ x ∈ l, p x)
    (hpairwise : l.Pairwise fun a b => less? b a = some falling) :
    SortsTo less? p l (if falling then l.reverse else l) := by
  cases falling with
  | true =>
      refine ⟨.reverse_of_falling horder hl hpairwise, List.pairwise_reverse.mpr ?_⟩
      exact hpairwise.imp_of_mem fun {a b} ha hb hba => horder.asymm (hl b hb) (hl a ha) hba
  | false => exact .of_rising hpairwise

/-- The first run is the sorted front of the list, which is empty only for an
empty list. -/
theorem exists_firstRun?_eq (horder : Orders less? p) (hl : ∀ x ∈ l, p x) :
    ∃ run others front, firstRun? less? l = some (run, others) ∧ l = front ++ others ∧
      SortsTo less? p front run ∧ (l ≠ [] → front ≠ []) := by
  match l with
  | [] => exact ⟨[], [], [], rfl, rfl, .of_rising .nil, id⟩
  | [x] => exact ⟨[x], [], [x], rfl, rfl, .of_rising (List.pairwise_singleton _ _), id⟩
  | x :: y :: rest =>
      obtain ⟨hx, hrest⟩ := List.forall_mem_cons.mp hl
      obtain ⟨hy, hrest⟩ := List.forall_mem_cons.mp hrest
      obtain ⟨falling, hyx⟩ := horder.compares hy hx
      obtain ⟨run, others, hcontinue, rfl, hrun⟩ :=
        exists_continueRun?_eq horder falling hy hrest
      have hmem : ∀ z ∈ x :: y :: run, p z := fun z hz =>
        hl z (List.mem_append_left others hz)
      have hpairwise : (x :: y :: run).Pairwise fun a b => less? b a = some falling := by
        refine List.pairwise_cons.mpr ⟨List.forall_mem_cons.mpr ⟨hyx, fun z hz => ?_⟩, hrun⟩
        exact horder.trans_of_eq hx hy (hrest z (List.mem_append_left _ hz)) hyx
          ((List.pairwise_cons.mp hrun).1 z hz)
      refine ⟨_, others, x :: y :: run, ?_, rfl, sortsTo_of_pairwise horder hmem hpairwise,
        fun _ => List.cons_ne_nil _ _⟩
      simp only [firstRun?, hyx, hcontinue, Option.map_some]

theorem exists_fullRun?_eq (horder : Orders less? p) (least : Nat) (hl : ∀ x ∈ l, p x) :
    ∃ run others front, fullRun? less? least l = some (run, others) ∧ l = front ++ others ∧
      SortsTo less? p front run ∧ (l ≠ [] → front ≠ []) := by
  obtain ⟨run, others, front, hfirst, rfl, hsorts, hne⟩ := exists_firstRun?_eq horder hl
  obtain ⟨hfront, hothers⟩ := List.forall_mem_append.mp hl
  have hnews : ∀ x ∈ others.take (least - run.length), p x :=
    fun x hx => hothers x (List.mem_of_mem_take hx)
  obtain ⟨full, hplaceAll, hfull⟩ := exists_placeAll?_eq horder (hsorts.isRun hfront) hnews
  refine ⟨full, others.drop (least - run.length), front ++ others.take (least - run.length), ?_,
    ?_, hfull.of_arranges (hsorts.toArranges.append (.refl _)), ?_⟩
  · simp only [fullRun?, hfirst, hplaceAll, Option.map_some]
  · rw [List.append_assoc, List.take_append_drop]
  · intro hl hnil
    exact hne hl (List.append_eq_nil_iff.mp hnil).1

/-- A list is cut into runs that together arrange it. -/
theorem exists_cutRuns?_eq (horder : Orders less? p) (least : Nat) (hl : ∀ x ∈ l, p x)
    (hfuel : l.length ≤ fuel) :
    ∃ runs, cutRuns? less? least fuel l = some runs ∧ (∀ run ∈ runs, IsRun less? p run) ∧
      Arranges less? p l runs.flatten := by
  induction fuel generalizing l with
  | zero =>
      obtain rfl := List.eq_nil_of_length_eq_zero (Nat.le_zero.mp hfuel)
      exact ⟨[], rfl, by simp, .refl []⟩
  | succ fuel ih =>
      by_cases hnil : l = []
      · subst hnil
        exact ⟨[], rfl, by simp, .refl []⟩
      · obtain ⟨run, others, front, hrun, rfl, hsorts, hne⟩ :=
          exists_fullRun?_eq horder least hl
        -- A run is never empty, so the fuel lasts for the others.
        have hpos := List.length_pos_iff.mpr (hne hnil)
        obtain ⟨hfront, hothers⟩ := List.forall_mem_append.mp hl
        rw [List.length_append] at hfuel
        obtain ⟨runs, hcut, hruns, harranges⟩ := ih hothers (by omega)
        refine ⟨run :: runs, ?_, List.forall_mem_cons.mpr ⟨hsorts.isRun hfront, hruns⟩, ?_⟩
        · rw [cutRuns?, hrun]
          · simp only [hcut, Option.map_some]
          · exact hnil
        · rw [List.flatten_cons]
          exact hsorts.toArranges.append harranges

/-! ## Merging the runs that wait -/

namespace Waiting

/-- What runs hold together: those that wait, the nearest first, and a stretch
behind them. -/
def joined : List (List α × Nat) → List α → List α
  | [], l => l
  | (run, _) :: earlier, l => joined earlier (run ++ l)

theorem joined_append (earlier : List (List α × Nat)) (l l' : List α) :
    joined earlier (l ++ l') = joined earlier l ++ l' := by
  induction earlier generalizing l with
  | nil => rfl
  | cons e earlier ih => rw [joined, joined, ← List.append_assoc, ih]

theorem arranges_joined {l l' : List α} (h : Arranges less? p l l')
    (earlier : List (List α × Nat)) :
    Arranges less? p (joined earlier l) (joined earlier l') := by
  induction earlier generalizing l l' with
  | nil => exact h
  | cons e earlier ih => exact ih ((Arranges.refl e.1).append h)

/-- All runs that wait are runs. -/
structure Sound (less? : α → α → Option Bool) (p : α → Prop) (w : Waiting α) : Prop where
  last : IsRun less? p w.last
  earlier : ∀ e ∈ w.earlier, IsRun less? p e.1

theorem exists_settle?_eq (horder : Orders less? p) (depth patience : Nat)
    {earlier : List (List α × Nat)} (hlast : IsRun less? p l)
    (hearlier : ∀ e ∈ earlier, IsRun less? p e.1) :
    ∃ w, settle? less? depth l patience earlier = some w ∧ w.Sound less? p ∧
      Arranges less? p (joined earlier l) (joined w.earlier w.last) := by
  induction earlier generalizing l patience with
  | nil => exact ⟨⟨l, [], patience⟩, rfl, ⟨hlast, by simp⟩, .refl l⟩
  | cons e earlier ih =>
      obtain ⟨run, d⟩ := e
      obtain ⟨hrun, hearlier'⟩ := List.forall_mem_cons.mp hearlier
      by_cases hdeeper : depth < d
      · obtain ⟨merged, next, hmerge, hsorts⟩ := exists_mergeRuns?_eq horder hrun hlast patience
        have hmerged := hsorts.isRun (List.forall_mem_append.mpr ⟨hrun.mem, hlast.mem⟩)
        obtain ⟨w, hsettle, hsound, harranges⟩ := ih next hmerged hearlier'
        refine ⟨w, ?_, hsound, (arranges_joined hsorts.toArranges earlier).trans harranges⟩
        simp only [settle?, if_pos hdeeper, hmerge, hsettle]
      · refine ⟨⟨l, (run, d) :: earlier, patience⟩, ?_, ⟨hlast, hearlier⟩, .refl _⟩
        simp only [settle?, if_neg hdeeper]

theorem exists_push?_eq (horder : Orders less? p) (size : Nat) {w : Waiting α}
    (hw : w.Sound less? p) (hrun : IsRun less? p run) :
    ∃ w', w.push? less? size run = some w' ∧ w'.Sound less? p ∧
      Arranges less? p (joined w.earlier w.last ++ run) (joined w'.earlier w'.last) := by
  obtain ⟨w', hsettle, hsound, harranges⟩ := exists_settle?_eq horder
    (boundaryDepth size w.place w.last.length run.length) w.patience hw.last hw.earlier
  refine ⟨⟨run, (w'.last, boundaryDepth size w.place w.last.length run.length) :: w'.earlier,
    w'.patience⟩, ?_, ⟨hrun, ?_⟩, ?_⟩
  · rw [push?, hsettle, Option.map_some]
  · exact List.forall_mem_cons.mpr ⟨hsound.last, hsound.earlier⟩
  · simp only [joined, joined_append]
    exact harranges.append (.refl run)

theorem exists_merge?_eq (horder : Orders less? p) (patience : Nat) {beforeLast : List α}
    {earlier : List (List α × Nat)} (hlast : IsRun less? p l)
    (hbefore : IsRun less? p beforeLast) (hearlier : ∀ e ∈ earlier, IsRun less? p e.1) :
    ∃ merged, merge? less? l beforeLast patience earlier = some merged ∧
      SortsTo less? p (joined earlier (beforeLast ++ l)) merged := by
  induction earlier generalizing l beforeLast patience with
  | nil =>
      obtain ⟨merged, next, hmerge, hsorts⟩ := exists_mergeRuns?_eq horder hbefore hlast patience
      exact ⟨merged, by rw [merge?, hmerge, Option.map_some], hsorts⟩
  | cons e earlier ih =>
      obtain ⟨run, d⟩ := e
      obtain ⟨hrun, hearlier'⟩ := List.forall_mem_cons.mp hearlier
      -- The run in the middle is merged with the shorter of its neighbours.
      by_cases hshort : run.length < l.length
      · obtain ⟨front, next, hmerge, hsorts⟩ := exists_mergeRuns?_eq horder hrun hbefore patience
        have hfront := hsorts.isRun (List.forall_mem_append.mpr ⟨hrun.mem, hbefore.mem⟩)
        obtain ⟨merged, hall, hsortsAll⟩ := ih next hlast hfront hearlier'
        refine ⟨merged, by simp only [merge?, if_pos hshort, hmerge, hall], ?_⟩
        refine hsortsAll.of_arranges ?_
        rw [joined, ← List.append_assoc]
        exact arranges_joined (hsorts.toArranges.append (.refl l)) earlier
      · obtain ⟨back, next, hmerge, hsorts⟩ := exists_mergeRuns?_eq horder hbefore hlast patience
        have hback := hsorts.isRun (List.forall_mem_append.mpr ⟨hbefore.mem, hlast.mem⟩)
        obtain ⟨merged, hall, hsortsAll⟩ := ih next hback hrun hearlier'
        refine ⟨merged, by simp only [merge?, if_neg hshort, hmerge, hall], ?_⟩
        refine hsortsAll.of_arranges ?_
        exact arranges_joined ((Arranges.refl run).append hsorts.toArranges) earlier

theorem exists_result?_eq (horder : Orders less? p) {w : Waiting α} (hw : w.Sound less? p) :
    ∃ merged, w.result? less? = some merged ∧
      SortsTo less? p (joined w.earlier w.last) merged := by
  obtain ⟨last, earlier, patience⟩ := w
  cases earlier with
  | nil => exact ⟨last, rfl, .of_rising hw.last.rising⟩
  | cons e earlier =>
      obtain ⟨run, d⟩ := e
      obtain ⟨hrun, hearlier⟩ := List.forall_mem_cons.mp hw.earlier
      exact exists_merge?_eq horder patience hw.last hrun hearlier

theorem exists_mergeAll?_eq (horder : Orders less? p) (size : Nat) {runs : List (List α)}
    {w : Waiting α} (hw : w.Sound less? p) (hruns : ∀ run ∈ runs, IsRun less? p run) :
    ∃ merged, mergeAll? less? size runs w = some merged ∧
      SortsTo less? p (joined w.earlier w.last ++ runs.flatten) merged := by
  induction runs generalizing w with
  | nil =>
      rw [List.flatten_nil, List.append_nil]
      exact exists_result?_eq horder hw
  | cons run runs ih =>
      obtain ⟨hrun, hruns'⟩ := List.forall_mem_cons.mp hruns
      obtain ⟨w', hpush, hsound, harranges⟩ := exists_push?_eq horder size hw hrun
      obtain ⟨merged, hall, hsorts⟩ := ih hsound hruns'
      refine ⟨merged, by simp only [mergeAll?, hpush, hall], hsorts.of_arranges ?_⟩
      rw [List.flatten_cons, ← List.append_assoc]
      exact harranges.append (.refl _)

end Waiting

/-! ## Sorting -/

theorem exists_sort?_eq (horder : Orders less? p) (hl : ∀ x ∈ l, p x) :
    ∃ sorted, sort? less? l = some sorted ∧ SortsTo less? p l sorted := by
  obtain ⟨runs, hcut, hruns, harranges⟩ :=
    exists_cutRuns?_eq horder (leastRun l.length) hl (Nat.le_refl _)
  cases runs with
  | nil =>
      refine ⟨[], by simp only [sort?, runs?, hcut], harranges, .nil⟩
  | cons run runs =>
      obtain ⟨hrun, hruns'⟩ := List.forall_mem_cons.mp hruns
      obtain ⟨sorted, hall, hsorts⟩ := Waiting.exists_mergeAll?_eq horder l.length
        (w := ⟨run, [], worthLeaping⟩) ⟨hrun, by simp⟩ hruns'
      refine ⟨sorted, by simp only [sort?, runs?, hcut, hall], hsorts.of_arranges ?_⟩
      rw [List.flatten_cons] at harranges
      exact harranges

/-- A list whose elements are compared by an order is sorted with the greatest element first:
the result holds the same elements, none of them stands behind one that it goes before, and tied
ones stand in the order of the list. -/
theorem sortDown?_sorts (horder : Orders less? (· ∈ l)) :
    ∃ sorted, sortDown? less? l = some sorted ∧ sorted.Perm l ∧
      (sorted.Pairwise fun a b => less? a b = some false) ∧
      ∀ x ∈ l, sorted.filter (tied less? x) = l.filter (tied less? x) := by
  obtain ⟨sorted, hsort, hsorts⟩ :=
    exists_sort?_eq horder fun x (hx : x ∈ l.reverse) => List.mem_reverse.mp hx
  have hflip := hsorts.flip
  rw [List.reverse_reverse] at hflip
  refine ⟨sorted.reverse, by rw [sortDown?, hsort, Option.map_some], hflip.perm, hflip.rising, ?_⟩
  intro x hx
  have hties := hflip.ties hx
  rwa [tied_flip] at hties

/-- Elements of which each goes before all earlier ones are what sorting with the
greatest one first gives, whatever order they came in. -/
theorem sortDown?_eq_of_falling {falling : List α} (horder : Orders less? (· ∈ l))
    (hperm : falling.Perm l) (hfalling : falling.Pairwise fun a b => less? b a = some true) :
    sortDown? less? l = some falling := by
  obtain ⟨sorted, hsort, hsorted, hrising, -⟩ := sortDown?_sorts horder
  have hweak : falling.Pairwise fun a b => less? a b = some false :=
    hfalling.imp_of_mem fun ha hb hba =>
      horder.asymm (hperm.mem_iff.mp hb) (hperm.mem_iff.mp ha) hba
  -- Of two different elements one goes before the other, so tied ones are the same.
  have hantisymm : ∀ ⦃a⦄, a ∈ falling → ∀ ⦃b⦄, b ∈ falling →
      less? a b = some false → less? b a = some false → a = b := by
    apply List.Pairwise.forall_of_forall_of_flip
    · exact fun a _ _ _ => rfl
    · refine hfalling.imp fun hba _ hfalse => ?_
      rw [hba] at hfalse
      contradiction
    · refine hfalling.imp fun hba hfalse _ => ?_
      rw [hba] at hfalse
      contradiction
  have hsame : sorted = falling :=
    (hsorted.trans hperm.symm).eq_of_pairwise
      (fun a b ha hb => hantisymm ((hsorted.trans hperm.symm).mem_iff.mp ha) hb) hrising hweak
  rw [hsort, hsame]

end Lifeline.Sorting
