import Lifeline.Proofs.Store.Persistence

/-!
# What operations change

The version counts the changes of the diagrams, as long as operations return: an operation
that returns has raised it by one when it made a change, and has left the diagrams alone when
it made none (`Accounts`).  An operation that fails in front of its change leaves all as it
was.  But a writing that fails stands behind the change: the diagrams have changed, the state
file is the old one or cut, and the version does not tell of it (`Leaves`).

Where writing succeeds the steps come to the same as the functions of a store.
-/

namespace Lifeline.Store

variable {s next : Store} {file : Option Bytes} {op : Operation} {w : Writing} {failure : Failure}

namespace Steps

/-! ## What steps come to -/

theorem bind_of_ok {α β : Type} {x : Steps α} {f : α → Steps β} {a : α} {t : Store}
    (h : x s = .ok a t) : (x >>= f) s = f a t := by
  show EStateM.bind x f s = f a t
  rw [EStateM.bind, h]

theorem bind_of_error {α β : Type} {x : Steps α} {f : α → Steps β} {t : Store}
    (h : x s = .error failure t) : (x >>= f) s = .error failure t := by
  show EStateM.bind x f s = .error failure t
  rw [EStateM.bind, h]

/-- A change whose writing fails is there in memory, and ends the steps. -/
theorem change_bind_of_ne_done {α : Type} (hw : w ≠ .done) (diagrams : TextMap Json)
    (f : Unit → Steps α) : (change w diagrams >>= f) s =
      .error .notWritten (w.leaves { s with diagrams := diagrams }) := by
  refine bind_of_error ?_
  cases w with
  | done => contradiction
  | refused => rfl
  | cut length => rfl

theorem fieldsAt_eq (id : Text) (s : Store) :
    fieldsAt id s = match ((s.diagrams.get? id).getD .null).fieldsOrVoid? with
      | some fields => .ok fields s
      | none => .error .noFields s := by
  show (match ((s.diagrams.get? id).getD .null).fieldsOrVoid? with
    | some fields => (return fields : Steps _)
    | none => throw Failure.noFields) s = _
  cases ((s.diagrams.get? id).getD .null).fieldsOrVoid? with
  | some fields => rfl
  | none => rfl

/-- A saving over something without fields stops in front of its change. -/
theorem put_of_none {now : Text} {r : Record} (h : keptCreation? s (diagramId r.name) = none) :
    put w now r s = .error .noFields s := by
  have hfields := fieldsAt_eq (diagramId r.name) s
  unfold keptCreation? at h
  cases hread : ((s.diagrams.get? (diagramId r.name)).getD .null).fieldsOrVoid? with
  | none =>
      rw [hread] at hfields
      exact bind_of_error hfields
  | some fields =>
      rw [hread] at h
      contradiction

/-- Any other saving makes its change. -/
theorem put_of_some {now : Text} {r : Record} {kept : Option Json}
    (h : keptCreation? s (diagramId r.name) = some kept) :
    put w now r s = (change w (s.diagrams.insert (diagramId r.name)
        (Json.obj (r.fieldsWith (creation now r kept) (.str now)))) >>= fun _ =>
      pure (Json.obj (("id".toText, .str (diagramId r.name)) ::
        r.fieldsWith (creation now r kept) (.str now)))) s := by
  have hfields := fieldsAt_eq (diagramId r.name) s
  unfold keptCreation? at h
  cases hread : ((s.diagrams.get? (diagramId r.name)).getD .null).fieldsOrVoid? with
  | none =>
      rw [hread] at h
      contradiction
  | some fields =>
      rw [hread] at hfields h
      rw [← Option.some.inj h]
      exact bind_of_ok hfields

theorem list_eq (s : Store) :
    list s = match s.list? with
      | some summaries => .ok summaries s
      | none => .error .noOrder s := by
  show (match s.list? with | some _ => _ | none => _ : Steps _) s = _
  cases s.list? with
  | none => rfl
  | some summaries => rfl

end Steps

/-! ## Operations -/

theorem stepsWith_list (w : Writing) (s : Store) : Operation.list.stepsWith w s = match s.list? with
    | some summaries => .ok (.listed summaries) s
    | none => .error .noOrder s := by
  have hlist := Steps.list_eq s
  cases hread : s.list? with
  | none =>
      rw [hread] at hlist
      exact Steps.bind_of_error hlist
  | some summaries =>
      rw [hread] at hlist
      exact Steps.bind_of_ok hlist

theorem stepsWith_get (w : Writing) (today id : Text) (s : Store) :
    (Operation.get today id).stepsWith w s = .ok (.looked (get today id s)) s := rfl

theorem steps_clear (s : Store) :
    (Operation.call .clear).steps s = .ok (.cleared (clear s).2) (clear s).1 := rfl

theorem steps_save (s : Store) : (Operation.call .save).steps s = .ok .written (save s) := rfl

/-- The diagrams that an operation makes of those that are there, if it changes them.  A
saving over something without fields does not come so far. -/
def Operation.change? (s : Store) : Operation → Option (TextMap Json)
  | .call (.put now r) => (keptCreation? s (diagramId r.name)).map fun kept =>
      s.diagrams.insert (diagramId r.name) (.obj (r.fieldsWith (creation now r kept) (.str now)))
  | .call (.remove id) =>
      if (s.diagrams.get? id).isSome then some (s.diagrams.erase id) else none
  | .call .clear => some TextMap.empty
  | _ => none

/-- What an operation answers and leaves behind when it returns: with a change the next
version, and without one the same diagrams in the same version. -/
def Accounts (s : Store) : Operation → Answer → Store → Prop
  | .list, .listed summaries, next => s.list? = some summaries ∧ next = s
  | .get today id, .looked found, next => found = get today id s ∧ next = s
  | .call (.put now r), .saved _, next =>
      ∃ diagrams, Operation.change? s (.call (.put now r)) = some diagrams ∧
        next = s.change diagrams
  | .call (.remove id), .removed true, next =>
      (s.diagrams.get? id).isSome = true ∧ next = s.change (s.diagrams.erase id)
  | .call (.remove id), .removed false, next => s.diagrams.get? id = none ∧ next = s
  | .call .clear, .cleared count, next => count = s.diagrams.size ∧ next = s.change TextMap.empty
  | .call .save, .written, next => next = save s
  | _, _, _ => False

/-- What an operation leaves behind when it fails.  A writing that fails does so behind the
change. -/
def Leaves (s : Store) (w : Writing) (op : Operation) : Failure → Store → Prop
  | .noFields, next => (∃ now r, op = .call (.put now r)) ∧ next = s
  | .noOrder, next => op = .list ∧ next = s
  | .notWritten, next => w ≠ .done ∧
      next = w.leaves { s with diagrams := (op.change? s).getD s.diagrams }

/-- An operation ends with an answer or with a failure, and leaves behind what it says. -/
def Ends (s : Store) (w : Writing) (op : Operation) : Prop :=
  match op.stepsWith w s with
  | .ok answer next => Accounts s op answer next
  | .error failure next => Leaves s w op failure next

theorem ends_of_ok {answer : Answer} (h : op.stepsWith w s = .ok answer next)
    (haccounts : Accounts s op answer next) : Ends s w op := by
  rw [Ends, h]
  exact haccounts

theorem ends_of_error (h : op.stepsWith w s = .error failure next)
    (hleaves : Leaves s w op failure next) : Ends s w op := by
  rw [Ends, h]
  exact hleaves

/-- An operation whose writing fails leaves its change in memory. -/
theorem ends_of_notWritten {diagrams : TextMap Json} (hw : w ≠ .done)
    (hchange : op.change? s = some diagrams)
    (h : op.stepsWith w s = .error .notWritten (w.leaves { s with diagrams := diagrams })) :
    Ends s w op := by
  refine ends_of_error h ⟨hw, ?_⟩
  rw [hchange]
  rfl

theorem ends_put (s : Store) (w : Writing) (now : Text) (r : Record) :
    Ends s w (.call (.put now r)) := by
  cases hkept : keptCreation? s (diagramId r.name) with
  | none => exact ends_of_error (Steps.bind_of_error (Steps.put_of_none hkept)) ⟨⟨now, r, rfl⟩, rfl⟩
  | some kept =>
      have hchange : Operation.change? s (.call (.put now r)) =
          some (s.diagrams.insert (diagramId r.name)
            (.obj (r.fieldsWith (creation now r kept) (.str now)))) := by
        rw [Operation.change?, hkept]
        rfl
      by_cases hw : w = .done
      · subst hw
        have hput : Steps.put .done now r s = .ok _ (s.change _) := Steps.put_of_some hkept
        exact ends_of_ok (Steps.bind_of_ok hput) ⟨_, hchange, rfl⟩
      · refine ends_of_notWritten hw hchange (Steps.bind_of_error ?_)
        rw [Steps.put_of_some hkept]
        exact Steps.change_bind_of_ne_done hw _ _

theorem ends_remove (s : Store) (w : Writing) (id : Text) : Ends s w (.call (.remove id)) := by
  by_cases hthere : (s.diagrams.get? id).isSome = true
  · have hchange : Operation.change? s (.call (.remove id)) = some (s.diagrams.erase id) :=
      if_pos hthere
    have hsteps : Steps.remove w id s =
        (Steps.change w (s.diagrams.erase id) >>= fun _ => pure true) s := by
      show (if _ then _ else _ : Steps _) s = _
      rw [if_pos hthere]
    -- Only a diagram that is there is removed, and only then the file is written.
    by_cases hw : w = .done
    · subst hw
      have hremove : Steps.remove .done id s = .ok true (s.change (s.diagrams.erase id)) := hsteps
      exact ends_of_ok (Steps.bind_of_ok hremove) ⟨hthere, rfl⟩
    · refine ends_of_notWritten hw hchange (Steps.bind_of_error ?_)
      rw [hsteps]
      exact Steps.change_bind_of_ne_done hw _ _
  · have hsteps : Steps.remove w id s = .ok false s := by
      show (if _ then _ else _ : Steps _) s = _
      rw [if_neg hthere]
      rfl
    exact ends_of_ok (Steps.bind_of_ok hsteps) ⟨by simpa using hthere, rfl⟩

theorem ends_clear (s : Store) (w : Writing) : Ends s w (.call .clear) := by
  by_cases hw : w = .done
  · subst hw
    exact ends_of_ok (steps_clear s) ⟨rfl, rfl⟩
  · refine ends_of_notWritten hw rfl (Steps.bind_of_error ?_)
    exact Steps.change_bind_of_ne_done hw _ _

theorem ends_save (s : Store) (w : Writing) : Ends s w (.call .save) := by
  cases w with
  | done => exact ends_of_ok (steps_save s) rfl
  | refused => exact ends_of_error rfl ⟨nofun, rfl⟩
  | cut length => exact ends_of_error rfl ⟨nofun, rfl⟩

theorem ends (s : Store) (w : Writing) (op : Operation) : Ends s w op := by
  cases op with
  | list =>
      have hsteps := stepsWith_list w s
      cases hlist : s.list? with
      | none =>
          rw [hlist] at hsteps
          exact ends_of_error hsteps ⟨rfl, rfl⟩
      | some summaries =>
          rw [hlist] at hsteps
          exact ends_of_ok hsteps ⟨hlist, rfl⟩
  | get today id => exact ends_of_ok (stepsWith_get w today id s) ⟨rfl, rfl⟩
  | call c =>
      cases c with
      | put now r => exact ends_put s w now r
      | remove id => exact ends_remove s w id
      | clear => exact ends_clear s w
      | save => exact ends_save s w

/-! ## The version -/

/-- An operation that returns has raised the version when it changed the diagrams. -/
theorem Accounts.version_eq {answer : Answer} (h : Accounts s op answer next) :
    next.version = s.version + (op.change? s).isSome.toNat ∧
      next.diagrams = (op.change? s).getD s.diagrams := by
  -- By cases on the operation and on its answer; other answers do not account for it.
  cases op with
  | list =>
      cases answer with
      | listed summaries =>
          rw [h.2]
          exact ⟨rfl, rfl⟩
      | _ => exact h.elim
  | get today id =>
      cases answer with
      | looked found =>
          rw [h.2]
          exact ⟨rfl, rfl⟩
      | _ => exact h.elim
  | call c =>
      cases c with
      | put now r =>
          cases answer with
          | saved entry =>
              obtain ⟨diagrams, hchange, rfl⟩ := h
              rw [hchange]
              exact ⟨rfl, rfl⟩
          | _ => exact h.elim
      | remove id =>
          cases answer with
          | removed there =>
              cases there with
              | true =>
                  obtain ⟨hthere, rfl⟩ := h
                  rw [Operation.change?, if_pos hthere]
                  exact ⟨rfl, rfl⟩
              | false =>
                  obtain ⟨hmissing, rfl⟩ := h
                  rw [Operation.change?, hmissing]
                  exact ⟨rfl, rfl⟩
          | _ => exact h.elim
      | clear =>
          cases answer with
          | cleared count =>
              rw [h.2]
              exact ⟨rfl, rfl⟩
          | _ => exact h.elim
      | save =>
          cases answer with
          | written =>
              obtain rfl := h
              exact ⟨rfl, rfl⟩
          | _ => exact h.elim

theorem version_leaves (w : Writing) (s : Store) : (w.leaves s).version = s.version := by
  cases w with
  | done => rfl
  | refused => rfl
  | cut length => rfl

/-- What fails never raises the version. -/
theorem Leaves.version_eq (h : Leaves s w op failure next) : next.version = s.version := by
  cases failure with
  | noFields => rw [h.2]
  | noOrder => rw [h.2]
  | notWritten => rw [h.2, version_leaves]

/-- An attempt returns. -/
def Attempt.returns (a : Attempt) (s : Store) : Bool :=
  match a.steps s with
  | .ok _ _ => true
  | .error _ _ => false

/-- An attempt changes the diagrams and returns. -/
def Attempt.isChange (a : Attempt) (s : Store) : Bool :=
  a.returns s && (a.op.change? s).isSome

/-- How many attempts of several in order change the diagrams and return. -/
def changeCount : Store → List Attempt → Nat
  | _, [] => 0
  | s, a :: rest => (a.isChange s).toNat + changeCount (reached a.steps s) rest

theorem version_reached (a : Attempt) (s : Store) :
    (reached a.steps s).version = s.version + (a.isChange s).toNat := by
  have hends := ends s a.writing a.op
  unfold Ends at hends
  unfold reached Attempt.isChange Attempt.returns Attempt.steps
  cases hsteps : a.op.stepsWith a.writing s with
  | ok answer next =>
      rw [hsteps] at hends
      exact hends.version_eq.1
  | error failure next =>
      rw [hsteps] at hends
      exact hends.version_eq

theorem version_behind (s : Store) (attempts : List Attempt) :
    (s.behind attempts).version = s.version + changeCount s attempts := by
  induction attempts generalizing s with
  | nil => rfl
  | cons a rest ih =>
      have hfirst := version_reached a s
      have hlater := ih (reached a.steps s)
      rw [changeCount]
      show ((reached a.steps s).behind rest).version = _
      omega

/-- As long as attempts return, the diagrams change only with the version. -/
theorem diagrams_reached {a : Attempt} (hreturns : a.returns s = true)
    (hversion : (reached a.steps s).version = s.version) :
    (reached a.steps s).diagrams = s.diagrams := by
  have hends := ends s a.writing a.op
  unfold Ends at hends
  unfold Attempt.returns Attempt.steps at hreturns
  unfold reached Attempt.steps at hversion ⊢
  cases hsteps : a.op.stepsWith a.writing s with
  | error failure next =>
      rw [hsteps] at hreturns
      contradiction
  | ok answer next =>
      rw [hsteps] at hends hversion
      obtain ⟨hraised, hdiagrams⟩ := hends.version_eq
      -- An operation that changes the diagrams has raised the version, which is the same.
      cases hchange : a.op.change? s with
      | none =>
          rw [hchange] at hdiagrams
          exact hdiagrams
      | some diagrams =>
          rw [hchange] at hraised
          have hsame : next.version = s.version := hversion
          rw [hsame] at hraised
          exact absurd hraised (Nat.ne_of_lt (Nat.lt_succ_self _))

theorem version_of_openFile [Json.Stack] (h : openFile file = .ok s) : s.version = 0 := by
  obtain ⟨diagrams, -, rfl⟩ := exists_of_openFile h
  rfl

/-- Behind any attempts on a store that was opened, whether they failed or not, the version is
the number of those that changed the diagrams and returned, and the next attempt ends in one
of the ways that are told: it returns, with the next version exactly when it changed the
diagrams; it fails in front of its change, and leaves the store as it was; or its writing
fails, and leaves its change in memory, the version as it was, and the state file as it was or
cut.  So the diagrams behind an attempt that returns in the same version are the same. -/
theorem version_counts_changes [Json.Stack] (h : openFile file = .ok s)
    (attempts : List Attempt) :
    (s.behind attempts).version = changeCount s attempts ∧
      (∀ w op, Ends (s.behind attempts) w op) ∧
      ∀ a : Attempt, a.returns (s.behind attempts) = true →
        (reached a.steps (s.behind attempts)).version = (s.behind attempts).version →
          (reached a.steps (s.behind attempts)).diagrams = (s.behind attempts).diagrams := by
  have hzero : s.version = 0 := version_of_openFile h
  refine ⟨?_, ends (s.behind attempts), fun a hreturns hversion => ?_⟩
  · rw [version_behind, hzero, Nat.zero_add]
  · exact diagrams_reached hreturns hversion

/-- A record named after an entry of the state file that is an array. -/
def recordOverArray : Record :=
  Record.ofSession ⟨"t0".toText, "today".toText⟩
    (Session.ofCode "X".toText plantUmlMode) (some "b".toText)

/-- Attempts of which one fails to write, and one stands in front of an array. -/
def someAttempts : List Attempt :=
  ⟨.done, .list⟩ :: ⟨.cut 3, .call (.remove "n".toText)⟩ :: someCalls.map fun c => ⟨.done, .call c⟩

theorem version_counts_changes_handWrittenFile :
    ∃ s, @openFile .usual (some handWrittenFile) = .ok s ∧
      (s.behind someAttempts).version = 1 ∧ changeCount s someAttempts = 1 ∧
      Ends (s.behind someAttempts) .done (.call (.put "t3".toText recordOverArray)) := by
  have hruns : (@openFile .usual (some handWrittenFile)).toOption.map (fun s =>
      changeCount s someAttempts) = some 1 := by
    decide +kernel
  cases hopen : @openFile .usual (some handWrittenFile) with
  | error e =>
      rw [hopen] at hruns
      contradiction
  | ok s =>
      rw [hopen] at hruns
      have hcount : changeCount s someAttempts = 1 := Option.some.inj hruns
      obtain ⟨hversion, hends, -⟩ := @version_counts_changes _ _ .usual hopen someAttempts
      exact ⟨s, rfl, hversion.trans hcount, hcount, hends _ _⟩

/-- A saving whose writing fails raises, and its record is there all the same: the store has
it, in the version of before, and the state file is empty. -/
theorem put_notWritten :
    ∃ s next, @openFile .usual none = .ok s ∧
      (Operation.call (.put "t1".toText recordOverArray)).stepsWith (.cut 0) s =
        .error .notWritten next ∧
      s.diagrams.keys = [] ∧ next.diagrams.keys = ["b".toText] ∧
      next.version = s.version ∧ s.file = none ∧ next.file = some [] :=
  ⟨_, _, rfl, rfl, rfl, by decide +kernel, rfl, rfl, rfl⟩

end Lifeline.Store
