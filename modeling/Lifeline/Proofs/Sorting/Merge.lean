import Lifeline.Proofs.Sorting.Search

/-!
# Merging two runs is right

A merge under way has an outcome: what is merged so far, and behind it what is
left of the two runs, merged in one go.  No move changes the outcome
(`Merge.Advances`), a single element as little as a leap, whatever the pace and
the patience; and when the merge is over the outcome is its result.  Both
directions are covered by one argument, since a merge from the end is a merge of
the runs turned round with the order turned round.
-/

namespace Lifeline.Sorting

variable {α : Type} {less? ahead? : α → α → Option Bool} {p : α → Prop} {x y : α}
  {d : Direction} {l front back later shorter longer : List α} {m : Merge α}

namespace Merge

/-- What a merge under way comes to. -/
def outcome (ahead? : α → α → Option Bool) (m : Merge α) : List α :=
  m.merged.reverse ++ List.merge m.shorter m.longer (atMost ahead?)

/-- The number of elements that are not merged yet. -/
def left (m : Merge α) : Nat :=
  m.shorter.length + m.longer.length

/-- What is left of the two runs can be merged, and the last element of the
shorter one belongs behind the whole longer one. -/
structure Ready (ahead? : α → α → Option Bool) (p : α → Prop) (m : Merge α) : Prop where
  shorter_run : IsRun ahead? p m.shorter
  longer_run : IsRun ahead? p m.longer
  last_behind : ∀ y, m.shorter.getLast? = some y → ∀ x ∈ m.longer, ahead? x y = some true

/-- A move from one state of a merge to another one that has the same outcome
and fewer elements left. -/
structure Advances (ahead? : α → α → Option Bool) (p : α → Prop) (m m' : Merge α) : Prop where
  ready : Ready ahead? p m'
  outcome_eq : outcome ahead? m' = outcome ahead? m
  left_lt : m'.left < m.left

/-! ## Taking elements -/

theorem Ready.takeShorter (h : Ready ahead? p m) (n : Nat) : Ready ahead? p (m.takeShorter n) where
  shorter_run := h.shorter_run.sublist (List.drop_sublist n m.shorter)
  longer_run := h.longer_run
  last_behind y hy := by
    simp only [Merge.takeShorter, List.getLast?_drop] at hy
    split at hy
    · contradiction
    · exact h.last_behind y hy

theorem Ready.takeLonger (h : Ready ahead? p m) (n : Nat) : Ready ahead? p (m.takeLonger n) where
  shorter_run := h.shorter_run
  longer_run := h.longer_run.sublist (List.drop_sublist n m.longer)
  last_behind y hy x hx := h.last_behind y hy x (List.mem_of_mem_drop hx)

/-- The outcome stays when elements are taken from the shorter run that the head
of the longer one does not go before. -/
theorem outcome_takeShorter (hshorter : m.shorter = front ++ back) (hlonger : m.longer = x :: later)
    (hfront : ∀ y ∈ front, ahead? x y = some false) :
    outcome ahead? (m.takeShorter front.length) = outcome ahead? m := by
  have hle : ∀ y ∈ front, atMost ahead? y x = true := by
    intro y hy
    simp [atMost, hfront y hy]
  simp only [outcome, takeShorter, hshorter, hlonger, List.take_left, List.drop_left,
    List.reverse_append, List.reverse_reverse, List.append_assoc, merge_append_left hle]

/-- The outcome stays when elements are taken from the longer run that go before
the head of the shorter one. -/
theorem outcome_takeLonger (hlonger : m.longer = front ++ back) (hshorter : m.shorter = y :: later)
    (hfront : ∀ x ∈ front, ahead? x y = some true) :
    outcome ahead? (m.takeLonger front.length) = outcome ahead? m := by
  have hle : ∀ x ∈ front, atMost ahead? y x = false := by
    intro x hx
    simp [atMost, hfront x hx]
  simp only [outcome, takeLonger, hshorter, hlonger, List.take_left, List.drop_left,
    List.reverse_append, List.reverse_reverse, List.append_assoc, merge_append_right hle]

theorem left_takeShorter (hshorter : m.shorter = front ++ back) :
    (m.takeShorter front.length).left + front.length = m.left := by
  simp only [left, takeShorter, hshorter, List.drop_left, List.length_append]
  omega

theorem left_takeLonger (hlonger : m.longer = front ++ back) :
    (m.takeLonger front.length).left + front.length = m.left := by
  simp only [left, takeLonger, hlonger, List.drop_left, List.length_append]
  omega

/-- The head of the shorter run is taken. -/
theorem advances_takeShorter (h : Ready ahead? p m) (hshorter : m.shorter = y :: back)
    (hlonger : m.longer = x :: later) (hxy : ahead? x y = some false) :
    Advances ahead? p m (m.takeShorter 1) := by
  have hfront : m.shorter = [y] ++ back := hshorter
  have hleft : (m.takeShorter 1).left + 1 = m.left := left_takeShorter hfront
  refine ⟨h.takeShorter 1, ?_, by omega⟩
  exact outcome_takeShorter hfront hlonger (by simpa using hxy)

/-- The head of the longer run is taken. -/
theorem advances_takeLonger (h : Ready ahead? p m) (hlonger : m.longer = x :: back)
    (hshorter : m.shorter = y :: later) (hxy : ahead? x y = some true) :
    Advances ahead? p m (m.takeLonger 1) := by
  have hfront : m.longer = [x] ++ back := hlonger
  have hleft : (m.takeLonger 1).left + 1 = m.left := left_takeLonger hfront
  refine ⟨h.takeLonger 1, ?_, by omega⟩
  exact outcome_takeLonger hfront hshorter (by simpa using hxy)

/-! ## The end of a merge -/

theorem exists_of_isOver_eq_false (h : m.isOver = false) :
    ∃ x later y earlier, m.longer = x :: later ∧ m.shorter = y :: earlier := by
  unfold isOver at h
  split at h
  · contradiction
  · contradiction
  · contradiction
  · rename_i hnil hsingle hlonger
    obtain ⟨y, earlier, hy⟩ := List.exists_cons_of_ne_nil hnil
    obtain ⟨x, later, hx⟩ := List.exists_cons_of_ne_nil hlonger
    exact ⟨x, later, y, earlier, hx, hy⟩

theorem pos_of_isOver_takeShorter {n : Nat} (h : m.isOver = false)
    (hover : (m.takeShorter n).isOver = true) : 0 < n := by
  rcases n.eq_zero_or_pos with rfl | hn
  · exact absurd (h.symm.trans hover) Bool.false_ne_true
  · exact hn

theorem pos_of_isOver_takeLonger {n : Nat} (h : m.isOver = false)
    (hover : (m.takeLonger n).isOver = true) : 0 < n := by
  rcases n.eq_zero_or_pos with rfl | hn
  · exact absurd (h.symm.trans hover) Bool.false_ne_true
  · exact hn

/-- When a merge is over, its result is what it comes to. -/
theorem result_eq_outcome (h : Ready ahead? p m) (hover : m.isOver = true) :
    m.result = outcome ahead? m := by
  unfold result outcome
  unfold isOver at hover
  split at hover
  · rename_i hshorter
    simp [hshorter]
  · rename_i y hshorter
    -- The last element of the shorter run goes behind the longer one.
    have hle : ∀ x ∈ m.longer, atMost ahead? y x = false := by
      intro x hx
      simp [atMost, h.last_behind y (by rw [hshorter]; rfl) x hx]
    have hmerge : List.merge [y] (m.longer ++ []) (atMost ahead?) = m.longer ++ [y] :=
      (merge_append_right hle).trans (by rw [List.merge_right])
    rw [List.append_nil] at hmerge
    rw [hshorter, hmerge, List.append_assoc]
  · rename_i hlonger hnil hsingle
    simp [hlonger]
  · contradiction

/-! ## Moves -/

theorem exists_takeHead?_eq (horder : Orders ahead? p) (h : Ready ahead? p m)
    (hover : m.isOver = false) :
    ∃ m' fromLonger, m.takeHead? ahead? = some (m', fromLonger) ∧ Advances ahead? p m m' := by
  obtain ⟨x, later, y, earlier, hlonger, hshorter⟩ := exists_of_isOver_eq_false hover
  have hx : p x := h.longer_run.mem x (by rw [hlonger]; exact List.mem_cons_self)
  have hy : p y := h.shorter_run.mem y (by rw [hshorter]; exact List.mem_cons_self)
  rcases horder.eq_true_or_eq_false hx hy with hxy | hxy
  · refine ⟨m.takeLonger 1, true, ?_, advances_takeLonger h hlonger hshorter hxy⟩
    simp only [takeHead?, hlonger, hshorter, hxy, Option.map_some, if_true]
  · refine ⟨m.takeShorter 1, false, ?_, advances_takeShorter h hshorter hlonger hxy⟩
    simp only [takeHead?, hlonger, hshorter, hxy, Option.map_some, Bool.false_eq_true, if_false]

theorem exists_leapShorter?_eq (horder : Orders ahead? p) (h : Ready ahead? p m)
    (hover : m.isOver = false) :
    ∃ m' passed, m.leapShorter? d ahead? = some (m', passed) ∧ Advances ahead? p m m' := by
  obtain ⟨x, later, -, -, hlonger, -⟩ := exists_of_isOver_eq_false hover
  have hx : p x := h.longer_run.mem x (by rw [hlonger]; exact List.mem_cons_self)
  obtain ⟨front, back, hshorter, hsplits⟩ :=
    horder.splits_atMost h.shorter_run hx
  have houtcome := outcome_takeShorter hshorter hlonger hsplits.less_eq_false
  have hleft := left_takeShorter hshorter
  have hready := h.takeShorter front.length
  have hcount := countByLeaps?_eq (d := d) hsplits
  rw [← hshorter] at hcount
  simp only [leapShorter?, hlonger, hcount, Option.map_some]
  by_cases hend : (m.takeShorter front.length).isOver = true
  · -- The merge was not over before, so that some element was passed.
    have hpassed := pos_of_isOver_takeShorter hover hend
    rw [if_pos hend]
    exact ⟨_, _, rfl, hready, houtcome, by omega⟩
  · rw [if_neg hend]
    obtain ⟨-, -, y, earlier, -, hy⟩ := exists_of_isOver_eq_false (by simpa using hend)
    have hxy : ahead? x y = some true := by
      have hback : (m.takeShorter front.length).shorter = back := by
        simp only [takeShorter, hshorter, List.drop_left]
      exact hsplits.less_eq_true y (by rw [← hback, hy]; exact List.mem_cons_self)
    have hnext := advances_takeLonger hready hlonger hy hxy
    exact ⟨_, _, rfl, hnext.ready, hnext.outcome_eq.trans houtcome,
      Nat.lt_of_lt_of_le hnext.left_lt (by omega)⟩

theorem exists_leapLonger?_eq (horder : Orders ahead? p) (h : Ready ahead? p m)
    (hover : m.isOver = false) :
    ∃ m' passed, m.leapLonger? d ahead? = some (m', passed) ∧ Advances ahead? p m m' := by
  obtain ⟨-, -, y, earlier, -, hshorter⟩ := exists_of_isOver_eq_false hover
  have hy : p y := h.shorter_run.mem y (by rw [hshorter]; exact List.mem_cons_self)
  obtain ⟨front, back, hlonger, hsplits⟩ := horder.splits_less h.longer_run hy
  have houtcome := outcome_takeLonger hlonger hshorter hsplits.front_true
  have hleft := left_takeLonger hlonger
  have hready := h.takeLonger front.length
  have hcount := countByLeaps?_eq (d := d) hsplits
  rw [← hlonger] at hcount
  simp only [leapLonger?, hshorter, hcount, Option.map_some]
  by_cases hend : (m.takeLonger front.length).isOver = true
  · have hpassed := pos_of_isOver_takeLonger hover hend
    rw [if_pos hend]
    exact ⟨_, _, rfl, hready, houtcome, by omega⟩
  · rw [if_neg hend]
    obtain ⟨x, later, -, -, hx, -⟩ := exists_of_isOver_eq_false (by simpa using hend)
    have hxy : ahead? x y = some false := by
      have hback : (m.takeLonger front.length).longer = back := by
        simp only [takeLonger, hlonger, List.drop_left]
      exact hsplits.back_false x (by rw [← hback, hx]; exact List.mem_cons_self)
    have hnext := advances_takeShorter hready hshorter hx hxy
    exact ⟨_, _, rfl, hnext.ready, hnext.outcome_eq.trans houtcome,
      Nat.lt_of_lt_of_le hnext.left_lt (by omega)⟩

theorem Advances.trans {m₁ m₂ : Merge α} (h₁ : Advances ahead? p m m₁)
    (h₂ : Advances ahead? p m₁ m₂) : Advances ahead? p m m₂ :=
  ⟨h₂.ready, h₂.outcome_eq.trans h₁.outcome_eq, Nat.lt_trans h₂.left_lt h₁.left_lt⟩

/-- A leap in either run. -/
theorem exists_leap?_eq (horder : Orders ahead? p) (h : Ready ahead? p m)
    (hover : m.isOver = false) (inShorter : Bool) :
    ∃ m' passed, (if inShorter then leapShorter? d ahead? m else leapLonger? d ahead? m) =
      some (m', passed) ∧ Advances ahead? p m m' := by
  cases inShorter with
  | true => exact exists_leapShorter?_eq horder h hover
  | false => exact exists_leapLonger?_eq horder h hover

theorem exists_leapBoth?_eq (horder : Orders ahead? p) (h : Ready ahead? p m)
    (hover : m.isOver = false) :
    ∃ m' passed, m.leapBoth? d ahead? = some (m', passed) ∧ Advances ahead? p m m' := by
  obtain ⟨m₁, j, hfirst, hadvances⟩ :=
    exists_leap?_eq (d := d) horder h hover (decide (d = .forward))
  simp only [leapBoth?, hover, Bool.false_eq_true, if_false]
  rw [hfirst]
  by_cases hend : m₁.isOver = true
  · simp only [hend, if_true, Option.map_some]
    exact ⟨_, _, rfl, hadvances⟩
  · have hover' : m₁.isOver = false := by simpa using hend
    obtain ⟨m₂, k, hsecond, hadvances'⟩ :=
      exists_leap?_eq (d := d) horder hadvances.ready hover' (decide (d = .backward))
    simp only [hover', Bool.false_eq_true, if_false]
    rw [hsecond]
    exact ⟨_, _, rfl, hadvances.trans hadvances'⟩

/-- Every move of a merge that is not over leaves its outcome as it is. -/
theorem exists_move?_eq (horder : Orders ahead? p) (h : Ready ahead? p m)
    (hover : m.isOver = false) (pace : Pace) (patience : Nat) :
    ∃ m' pace' patience', m.move? d ahead? pace patience = some (m', pace', patience') ∧
      Advances ahead? p m m' := by
  cases pace with
  | single i j =>
      obtain ⟨m', fromLonger, htake, hadvances⟩ := exists_takeHead?_eq horder h hover
      simp only [move?, htake, Option.map_some]
      exact ⟨_, _, _, rfl, hadvances⟩
  | leaping =>
      obtain ⟨m', passed, hleap, hadvances⟩ := exists_leapBoth?_eq (d := d) horder h hover
      simp only [move?, hleap, Option.map_some]
      by_cases hworth : worthLeaping ≤ passed
      · rw [if_pos hworth]
        exact ⟨_, _, _, rfl, hadvances⟩
      · rw [if_neg hworth]
        exact ⟨_, _, _, rfl, hadvances⟩

/-! ## Runs -/

theorem isOver_of_left_eq_zero (h : m.left = 0) : m.isOver = true := by
  have hshorter : m.shorter = [] := List.eq_nil_of_length_eq_zero (Nat.add_eq_zero_iff.mp h).1
  simp only [isOver, hshorter]

/-- A merge runs to its outcome. -/
theorem exists_run?_eq (horder : Orders ahead? p) {fuel : Nat} (h : Ready ahead? p m)
    (hfuel : m.left ≤ fuel) (pace : Pace) (patience : Nat) :
    ∃ next, run? d ahead? fuel pace patience m = some (outcome ahead? m, next) := by
  induction fuel generalizing m pace patience with
  | zero =>
      have hover := isOver_of_left_eq_zero (Nat.le_zero.mp hfuel)
      exact ⟨patience, by rw [run?, result_eq_outcome h hover]⟩
  | succ fuel ih =>
      by_cases hover : m.isOver = true
      · exact ⟨patience, by rw [run?, if_pos hover, result_eq_outcome h hover]⟩
      · obtain ⟨m', pace', patience', hmove, hadvances⟩ :=
          exists_move?_eq (d := d) horder h (by simpa using hover) pace patience
        have hlt := hadvances.left_lt
        rw [run?, if_neg hover, hmove, ← hadvances.outcome_eq]
        exact ih hadvances.ready (by omega) _ _

/-- Two runs are merged, when the head of the longer one goes before the
whole shorter one, and the last element of the shorter one belongs behind the
whole longer one. -/
theorem exists_start?_eq (horder : Orders ahead? p) (hshorter : IsRun ahead? p shorter)
    (hlonger : IsRun ahead? p longer)
    (hhead : ∀ x, longer.head? = some x → ∀ y ∈ shorter, ahead? x y = some true)
    (hlast : ∀ y, shorter.getLast? = some y → ∀ x ∈ longer, ahead? x y = some true)
    (patience : Nat) :
    ∃ next, start? d ahead? patience shorter longer =
      some (List.merge shorter longer (atMost ahead?), next) := by
  have hready : Ready ahead? p ⟨[], shorter, longer⟩ :=
    ⟨hshorter, hlonger, hlast⟩
  have houtcome : outcome ahead? (takeLonger 1 ⟨[], shorter, longer⟩) =
      List.merge shorter longer (atMost ahead?) := by
    cases longer with
    | nil => simp [outcome, takeLonger]
    | cons x longer =>
        cases shorter with
        | nil => simp [outcome, takeLonger]
        | cons y shorter =>
            have hxy := hhead x rfl y List.mem_cons_self
            exact (advances_takeLonger hready rfl rfl hxy).outcome_eq
  have hfuel : (takeLonger 1 ⟨[], shorter, longer⟩).left ≤ shorter.length + longer.length := by
    simp only [left, takeLonger, List.length_drop]
    omega
  obtain ⟨next, hrun⟩ :=
    exists_run?_eq (d := d) horder (hready.takeLonger 1) hfuel (.single 0 0) patience
  exact ⟨next, by rw [start?, hrun, houtcome]⟩

end Merge

/-! ## Runs that stand one behind the other -/

/-- The inner parts of two runs are merged in either direction. -/
theorem exists_mergeInner?_eq (horder : Orders less? p) (hfront : IsRun less? p front)
    (hback : IsRun less? p back)
    (hhead : ∀ x, back.head? = some x → ∀ y ∈ front, less? x y = some true)
    (hlast : ∀ y, front.getLast? = some y → ∀ x ∈ back, less? x y = some true)
    (patience : Nat) :
    ∃ merged next, mergeInner? less? patience front back = some (merged, next) ∧
      SortsTo less? p (front ++ back) merged := by
  unfold mergeInner?
  by_cases hle : front.length ≤ back.length
  · obtain ⟨next, hstart⟩ :=
      Merge.exists_start?_eq (d := .forward) horder hfront hback hhead hlast patience
    rw [if_pos hle, hstart]
    exact ⟨_, _, rfl, sortsTo_merge horder hfront hback⟩
  · -- From the end the runs and the order are turned round.
    obtain ⟨next, hstart⟩ := Merge.exists_start?_eq (d := .backward) horder.flip hback.flip
      hfront.flip (fun y hy x hx => hlast y (by simpa using hy) x (List.mem_reverse.mp hx))
      (fun x hx y hy => hhead x (by simpa using hx) y (List.mem_reverse.mp hy)) patience
    rw [if_neg hle, hstart]
    refine ⟨_, _, rfl, ?_⟩
    have hsorts := (sortsTo_merge horder.flip hback.flip hfront.flip).flip
    rwa [List.reverse_append, List.reverse_reverse, List.reverse_reverse] at hsorts

/-- Between what stands in front of the second run for good and what stands
behind the first run for good, the rest of both may be merged apart. -/
theorem sortsTo_trimmed {small middle inner great merged : List α} {head last : α}
    (horder : Orders less? p) (hfront : IsRun less? p (small ++ middle))
    (hback : IsRun less? p (inner ++ great)) (hhead : (inner ++ great).head? = some head)
    (hlast : (small ++ middle).getLast? = some last)
    (hsmall : ∀ a ∈ small, less? head a = some false)
    (hgreat : ∀ c ∈ great, less? c last = some false)
    (h : SortsTo less? p (middle ++ inner) merged) :
    SortsTo less? p (small ++ middle ++ (inner ++ great)) (small ++ merged ++ great) := by
  have hheadmem : p head := hback.mem head (List.mem_of_head? hhead)
  have hlastmem : p last := hfront.mem last (List.mem_of_getLast? hlast)
  -- What is not above the head of a run is above nothing in it, and so at its end.
  have hsmall_back : ∀ a ∈ small, ∀ b ∈ inner ++ great, less? b a = some false := fun a ha b hb =>
    horder.trans (hfront.of_append_left.mem a ha) hheadmem (hback.mem b hb) (hsmall a ha)
      (hback.head_atMost horder hhead b hb)
  have hfront_great : ∀ a ∈ small ++ middle, ∀ c ∈ great, less? c a = some false :=
    fun a ha c hc =>
      horder.trans (hfront.mem a ha) hlastmem (hback.of_append_right.mem c hc)
        (hfront.atMost_getLast horder hlast a ha) (hgreat c hc)
  obtain ⟨hsmalls, -, hacrossf⟩ := rising_append_iff.mp hfront.rising
  obtain ⟨-, hgreats, hacrossb⟩ := rising_append_iff.mp hback.rising
  have hsorts : SortsTo less? p (small ++ (middle ++ inner) ++ great)
      (small ++ merged ++ great) := by
    refine h.between ?_ ?_ ?_
    · refine rising_append_iff.mpr ⟨hsmalls, hgreats, fun a ha c hc => ?_⟩
      exact hfront_great a (List.mem_append_left _ ha) c hc
    · intro a ha b hb
      rcases List.mem_append.mp hb with hb | hb
      · exact hacrossf a ha b hb
      · exact hsmall_back a ha b (List.mem_append_left _ hb)
    · intro b hb c hc
      rcases List.mem_append.mp hb with hb | hb
      · exact hfront_great b (List.mem_append_right _ hb) c hc
      · exact hacrossb b hb c hc
  simpa only [List.append_assoc] using hsorts

/-- Runs stay as they are when the head of the second one goes before nothing of
the first one. -/
theorem mergeRuns?_of_splits_nil {head : α} {rest : List α}
    (hsmall : Splits (fun x => (less? head x).map not) front []) (patience : Nat) :
    mergeRuns? less? patience front (head :: rest) = some (front ++ head :: rest, patience) := by
  have hcount := countByLeaps?_eq (d := .forward) hsmall
  rw [List.append_nil] at hcount
  simp only [mergeRuns?, hcount, List.drop_length, List.getLast?_nil]

/-- Runs are merged between what stands in front of the second one for good and
what stands behind the first one for good. -/
theorem mergeRuns?_append {head last : α} {small middle inner great : List α}
    (hsmall : Splits (fun x => (less? head x).map not) small middle)
    (hgreat : Splits (fun x => (less? x last).map not) great.reverse inner.reverse)
    (hlast : middle.getLast? = some last) (hhead : inner.head? = some head) (patience : Nat) :
    mergeRuns? less? patience (small ++ middle) (inner ++ great) =
      (mergeInner? less? patience middle inner).map fun (l, patience) =>
        (small ++ l ++ great, patience) := by
  obtain ⟨rest, rfl⟩ := List.head?_eq_some_iff.mp hhead
  have hcount := countByLeaps?_eq (d := .backward) hgreat
  rw [← List.reverse_append, List.length_reverse] at hcount
  have hlength : (head :: rest ++ great).length - great.length = (head :: rest).length := by
    rw [List.length_append, Nat.add_sub_cancel]
  rw [List.cons_append] at hcount hlength ⊢
  simp only [mergeRuns?, countByLeaps?_eq (d := .forward) hsmall, List.drop_left, List.take_left,
    hlast, hcount, hlength]
  rw [← List.cons_append, List.take_left, List.drop_left]
  rfl

/-- Two runs that stand one behind the other are merged into a sorted one. -/
theorem exists_mergeRuns?_eq (horder : Orders less? p) (hfront : IsRun less? p front)
    (hback : IsRun less? p back) (patience : Nat) :
    ∃ merged next, mergeRuns? less? patience front back = some (merged, next) ∧
      SortsTo less? p (front ++ back) merged := by
  cases hcons : back with
  | nil =>
      refine ⟨front, patience, rfl, ?_⟩
      rw [List.append_nil]
      exact .of_rising hfront.rising
  | cons head rest =>
  rw [← hcons]
  have hhead : back.head? = some head := by rw [hcons, List.head?_cons]
  have hheadmem : p head := hback.mem head (List.mem_of_head? hhead)
  obtain ⟨small, middle, rfl, hsmall⟩ := horder.splits_atMost hfront hheadmem
  cases hlast : middle.getLast? with
  | none =>
      obtain rfl : middle = [] := List.getLast?_eq_none_iff.mp hlast
      rw [List.append_nil] at hfront ⊢
      refine ⟨_, _, hcons ▸ mergeRuns?_of_splits_nil hsmall patience, .of_rising ?_⟩
      refine rising_append_iff.mpr ⟨hfront.rising, hback.rising, fun a ha b hb => ?_⟩
      exact horder.trans (hfront.mem a ha) hheadmem (hback.mem b hb) (hsmall.less_eq_false a ha)
        (hback.head_atMost horder hhead b hb)
  | some last =>
  have hlastmem : last ∈ middle := List.mem_of_getLast? hlast
  obtain ⟨inner, great, rfl, hgreat⟩ :=
    horder.splits_end hback (hfront.of_append_right.mem last hlastmem)
  have hgreatlast : ∀ c ∈ great, less? c last = some false := by
    intro c hc
    simpa using hgreat.front_true c (List.mem_reverse.mpr hc)
  have hinnerlast : ∀ b ∈ inner, less? b last = some true := by
    intro b hb
    simpa using hgreat.back_false b (List.mem_reverse.mpr hb)
  -- The head of the second run goes before the last element of the first one.
  have hinnerhead : inner.head? = some head := by
    cases inner with
    | nil =>
        have hnot := hgreatlast head (List.mem_of_head? hhead)
        rw [hsmall.less_eq_true last hlastmem] at hnot
        contradiction
    | cons b inner => exact hhead
  obtain ⟨merged, next, hmerge, hsorts⟩ := exists_mergeInner?_eq horder hfront.of_append_right
    hback.of_append_left
      (fun x hx => Option.some.inj (hinnerhead.symm.trans hx) ▸ hsmall.less_eq_true)
    (fun y hy => Option.some.inj (hlast.symm.trans hy) ▸ hinnerlast) patience
  refine ⟨small ++ merged ++ great, next, ?_, ?_⟩
  · rw [mergeRuns?_append hsmall hgreat hlast hinnerhead, hmerge, Option.map_some]
  · refine sortsTo_trimmed horder hfront hback hhead ?_ hsmall.less_eq_false hgreatlast hsorts
    rw [List.getLast?_append, hlast, Option.some_or]

end Lifeline.Sorting
