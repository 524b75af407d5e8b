import Lifeline.Proofs.Store.Runs
import Lifeline.Store.Watch
import Mathlib.Data.List.Forall2
import Mathlib.Data.List.Induction

/-!
# No watcher sleeps through a change

All watchers share one flag, and each of them lowers it before it parks, so it has to
be shown that none lowers it over a change that another one has not seen yet.  What
holds in every state is told for one watcher (`Stands`): it is parked only while the flag
is down and there is nothing new for it, and it is done only with a version that was
new.  Calls, arrivals and turns come in any order.
-/

namespace Lifeline

/-- A store with its watchers. -/
structure Watched where
  store : Store
  watch : Watch

namespace Watched

/-- What happens next: a call, the first turn of a new watcher, or a turn of one that
was released. -/
inductive Event where
  | call (c : Store.Call)
  | arrive (since : Int)
  | resume (number : Nat)

/-- A store that nobody watches. -/
def start (s : Store) : Watched :=
  ⟨s, Watch.start s.version⟩

def after (w : Watched) : Event → Watched
  | .call c => ⟨w.store.call c, w.watch.follow (w.store.call c)⟩
  | .arrive since => ⟨w.store, w.watch.arrive since⟩
  | .resume number => ⟨w.store, w.watch.resume number⟩

def run (s : Store) (events : List Event) : Watched :=
  events.foldl after (start s)

def Event.since? : Event → Option Int
  | .arrive since => some since
  | _ => none

/-- The versions that the watchers wait to see exceeded, by number. -/
def arrivals (events : List Event) : List Int :=
  events.filterMap Event.since?

end Watched

namespace Watch

/-- How a watcher that waits for more than `since` may stand. -/
inductive Stands (flag : Option Bool) (version : Nat) (since : Int) : Watcher → Prop
  | parked : flag = some false → version ≤ since → Stands flag version since (.parked since)
  | released : Stands flag version since (.released since)
  | done (given : Nat) : since < given → given ≤ version → Stands flag version since (.done given)

variable {flag : Option Bool} {version : Nat} {since : Int} {watcher : Watcher} {w : Watch}
  {sinces : List Int} {number : Nat}

/-- Each watcher stands as it may. -/
def Sound (sinces : List Int) (w : Watch) : Prop :=
  List.Forall₂ (Stands w.flag w.version) sinces w.watchers

/-! ## A change -/

/-- Where the flag is not down, nobody is parked, and a change makes no difference. -/
theorem Stands.of_not_down (h : Stands flag version since watcher) (hflag : flag ≠ some false) :
    Stands flag (version + 1) since watcher := by
  cases h with
  | parked hdown hversion => exact absurd hdown hflag
  | released => exact .released
  | done given hsince hgiven => exact .done given hsince (Nat.le_succ_of_le hgiven)

theorem Stands.release (h : Stands flag version since watcher) :
    Stands (some true) (version + 1) since watcher.release := by
  cases h with
  | parked hdown hversion => exact .released
  | released => exact .released
  | done given hsince hgiven => exact .done given hsince (Nat.le_succ_of_le hgiven)

theorem version_bump (w : Watch) : w.bump.version = w.version + 1 := by
  unfold bump
  split <;> rfl

theorem Sound.bump (h : Sound sinces w) : Sound sinces w.bump := by
  unfold Watch.bump
  split
  · rename_i hflag
    exact h.imp fun _ _ hstands => hstands.of_not_down (by simp [hflag])
  · rename_i hflag
    exact h.imp fun _ _ hstands => hstands.of_not_down (by simp [hflag])
  · exact List.forall₂_map_right_iff.mpr (h.imp fun _ _ hstands => hstands.release)

/-! ## A turn -/

theorem version_turn (w : Watch) (since : Int) : (w.turn since).1.version = w.version := by
  unfold turn
  split <;> rfl

theorem watchers_turn (w : Watch) (since : Int) : (w.turn since).1.watchers = w.watchers := by
  unfold turn
  split <;> rfl

/-- The watcher whose turn it is stands as it may afterwards. -/
theorem stands_turn (w : Watch) (since : Int) :
    Stands (w.turn since).1.flag w.version since (w.turn since).2 := by
  unfold turn
  split
  · rename_i hnew
    exact .done w.version hnew (Nat.le_refl _)
  · rename_i hold
    exact .parked rfl (Int.not_lt.mp hold)

/-- A turn never raises the flag, so those that are parked still stand as they may. -/
theorem Stands.turn (h : Stands w.flag w.version since watcher) (other : Int) :
    Stands (w.turn other).1.flag w.version since watcher := by
  cases h with
  | parked hdown hversion =>
      refine .parked ?_ hversion
      unfold Watch.turn
      split
      · simp [hdown]
      · rfl
  | released => exact .released
  | done given hsince hgiven => exact .done given hsince hgiven

theorem Sound.turn (h : Sound sinces w) (other : Int) : Sound sinces (w.turn other).1 := by
  unfold Sound
  rw [version_turn, watchers_turn]
  exact h.imp fun _ _ hstands => hstands.turn other

theorem Sound.arrive (h : Sound sinces w) (since : Int) :
    Sound (sinces ++ [since]) (w.arrive since) := by
  have hnew : Stands (w.turn since).1.flag (w.turn since).1.version since (w.turn since).2 := by
    rw [version_turn]
    exact stands_turn w since
  exact List.rel_append (h.turn since) (.cons hnew .nil)

theorem forall₂_set {α β : Type} {r : α → β → Prop} {xs : List α} {ys : List β} {x : α} {y : β}
    (h : List.Forall₂ r xs ys) (hx : xs[number]? = some x) (hr : r x y) :
    List.Forall₂ r xs (ys.set number y) := by
  induction h generalizing number with
  | nil => exact .nil
  | cons hhead htail ih =>
      cases number with
      | zero =>
          obtain rfl : _ = x := Option.some.inj hx
          exact .cons hr htail
      | succ number => exact .cons hhead (ih hx)

/-- A watcher has a number of those that arrived. -/
theorem Sound.stands (h : Sound sinces w) (hwatcher : w.watchers[number]? = some watcher) :
    ∃ since, sinces[number]? = some since ∧ Stands w.flag w.version since watcher := by
  obtain ⟨hlt, rfl⟩ := List.getElem?_eq_some_iff.mp hwatcher
  have hlt' : number < sinces.length := h.length_eq ▸ hlt
  exact ⟨sinces[number], List.getElem?_eq_getElem hlt', h.get hlt' hlt⟩

/-- What a turn does: nothing where the watcher was not released. -/
theorem resume_cases (w : Watch) (number : Nat) :
    ((∀ since, w.watchers[number]? ≠ some (.released since)) ∧ w.resume number = w) ∨
      ∃ since, w.watchers[number]? = some (.released since) ∧
        w.resume number =
          { (w.turn since).1 with watchers := w.watchers.set number (w.turn since).2 } := by
  unfold resume
  split
  · rename_i since hwatcher
    refine Or.inr ⟨since, hwatcher, ?_⟩
    rw [← watchers_turn w since]
  · rename_i hother
    exact Or.inl ⟨hother, rfl⟩

theorem version_resume (w : Watch) (number : Nat) : (w.resume number).version = w.version := by
  obtain ⟨-, h⟩ | ⟨since, -, h⟩ := resume_cases w number
  · rw [h]
  · rw [h]
    exact version_turn w since

theorem Sound.resume (h : Sound sinces w) (number : Nat) : Sound sinces (w.resume number) := by
  obtain ⟨-, hresume⟩ | ⟨since, hwatcher, hresume⟩ := resume_cases w number
  · rwa [hresume]
  · obtain ⟨arrived, harrived, hstands⟩ := h.stands hwatcher
    have hturn := h.turn since
    rw [hresume]
    unfold Sound at hturn ⊢
    rw [version_turn, watchers_turn] at hturn
    cases hstands with
    | released =>
        refine forall₂_set ?_ harrived ?_
        · rwa [version_turn]
        · rw [version_turn]
          exact stands_turn w since

/-! ## The turns of all that were released -/

theorem turn_ne_released (w : Watch) (since other : Int) : (w.turn since).2 ≠ .released other := by
  unfold turn
  split <;> simp

/-- After its turn a watcher is not released any more. -/
theorem resume_ne_released (w : Watch) (number : Nat) (since : Int) :
    (w.resume number).watchers[number]? ≠ some (.released since) := by
  obtain ⟨hother, hresume⟩ | ⟨arrived, hwatcher, hresume⟩ := resume_cases w number
  · rw [hresume]
    exact hother since
  · obtain ⟨hlt, -⟩ := List.getElem?_eq_some_iff.mp hwatcher
    rw [hresume, List.getElem?_set_self hlt]
    exact fun h => turn_ne_released w arrived since (Option.some.inj h)

theorem getElem?_resume_of_ne {other : Nat} (hne : number ≠ other) (w : Watch) :
    (w.resume number).watchers[other]? = w.watchers[other]? := by
  obtain ⟨-, hresume⟩ | ⟨since, -, hresume⟩ := resume_cases w number
  · rw [hresume]
  · rw [hresume]
    exact List.getElem?_set_ne hne

theorem sound_settleFirst (h : Sound sinces w) (count : Nat) :
    Sound sinces (settleFirst count w) ∧ (settleFirst count w).version = w.version ∧
      ∀ number since, number < count →
        (settleFirst count w).watchers[number]? ≠ some (.released since) := by
  induction count with
  | zero => exact ⟨h, rfl, fun _ _ hlt => absurd hlt (Nat.not_lt_zero _)⟩
  | succ count ih =>
      obtain ⟨hsound, hversion, hturned⟩ := ih
      refine ⟨hsound.resume count, (version_resume _ count).trans hversion, ?_⟩
      intro number since hlt
      rcases Nat.lt_succ_iff_lt_or_eq.mp hlt with hearlier | rfl
      · have hsame := getElem?_resume_of_ne (Nat.ne_of_gt hearlier) (settleFirst count w)
        exact fun hreleased => hturned number since hearlier (hsame.symm.trans hreleased)
      · exact resume_ne_released _ number since

theorem Stands.isSome_version?_iff (h : Stands flag version since watcher)
    (hnot : ∀ other, watcher ≠ .released other) :
    watcher.version?.isSome ↔ since < version := by
  cases h with
  | parked hdown hversion => simpa [Watcher.version?] using hversion
  | released => exact absurd rfl (hnot since)
  | done given hsince hgiven =>
      have hnew : since < version := by omega
      simpa [Watcher.version?] using hnew

/-- When all have had their turns, those are done that there is something new for. -/
theorem Sound.settle (h : Sound sinces w) :
    List.Forall₂ (fun (since : Int) watcher => watcher.version?.isSome ↔ since < w.version)
      sinces w.settle.watchers := by
  obtain ⟨hsound, hversion, hturned⟩ := sound_settleFirst h w.watchers.length
  refine List.forall₂_iff_get.mpr ⟨hsound.length_eq, fun number hsince hwatcher => ?_⟩
  rw [← hversion]
  refine (hsound.get hsince hwatcher).isSome_version?_iff fun other hreleased => ?_
  have hlt : number < w.watchers.length := h.length_eq ▸ hsince
  have hget := (List.getElem?_eq_getElem hwatcher).trans (congrArg some hreleased)
  exact hturned number other hlt hget

end Watch

/-! ## Runs -/

namespace Watched

variable {sinces : List Int} {events : List Event} {w : Watched}

/-- The watchers know the version of the store, and each of them stands as it may. -/
structure Sound (sinces : List Int) (w : Watched) : Prop where
  version_eq : w.watch.version = w.store.version
  watchers : w.watch.Sound sinces

theorem Sound.call (h : Sound sinces w) (c : Store.Call) : Sound sinces (w.after (.call c)) := by
  have hversion := h.version_eq
  simp only [after, Watch.follow]
  rcases Store.version_call w.store c with ⟨hkept, -⟩ | hnext
  · rw [if_neg (by omega)]
    exact ⟨hversion.trans hkept.symm, h.watchers⟩
  · rw [if_pos (by omega)]
    exact ⟨by rw [Watch.version_bump, hversion, hnext], h.watchers.bump⟩

/-- Only an arrival adds a watcher. -/
theorem Sound.after (h : Sound (arrivals events) w) (e : Event) :
    Sound (arrivals (events ++ [e])) (w.after e) := by
  have harrivals : arrivals (events ++ [e]) = arrivals events ++ arrivals [e] :=
    List.filterMap_append
  rw [harrivals]
  cases e with
  | call c => exact (List.append_nil (arrivals events)).symm ▸ h.call c
  | arrive since =>
      exact ⟨(Watch.version_turn w.watch since).trans h.version_eq, h.watchers.arrive since⟩
  | resume number =>
      have hsound := h.watchers.resume number
      have hversion := (Watch.version_resume w.watch number).trans h.version_eq
      exact (List.append_nil (arrivals events)).symm ▸ ⟨hversion, hsound⟩

theorem sound_run (s : Store) (events : List Event) : Sound (arrivals events) (run s events) := by
  induction events using List.reverseRecOn with
  | nil => exact ⟨rfl, .nil⟩
  | append_singleton events e ih =>
      rw [run, List.foldl_append]
      exact ih.after e

/-- In every state each watcher stands as it may, and whenever all that were released
have had their turns, those are done whose version is exceeded, and no others. -/
theorem watchers_stand (s : Store) (events : List Event) :
    List.Forall₂
        (Watch.Stands (run s events).watch.flag (run s events).store.version)
        (arrivals events) (run s events).watch.watchers ∧
      List.Forall₂
        (fun (since : Int) watcher =>
          watcher.version?.isSome ↔ since < (run s events).store.version)
        (arrivals events) (run s events).watch.settle.watchers := by
  obtain ⟨hversion, hsound⟩ := sound_run s events
  rw [← hversion]
  exact ⟨hsound, hsound.settle⟩

/-- The second watcher lowers the flag that the change has raised for both, and the
first one was released before that. -/
example :
    (run ⟨TextMap.empty, 0, none⟩
        [.arrive 0, .arrive 1, .call .clear, .resume 1, .resume 0]).watch =
      ⟨1, some false, [.done 1, .parked 1]⟩ := by
  decide

end Watched
end Lifeline
