import Lifeline.Store.Basic

/-!
# Operations on a store

A store is changed by calls, and it is looked at.  An operation is a sequence of steps, and a
step that fails ends it: what was changed by the steps before stays changed.  In memory the
records change first, then the state file is written, and then the version is raised; so a
writing that fails leaves a store that has the change and does not tell of it.
-/

namespace Lifeline.Store

/-! ## Calls -/

/-- A call that may change a store, with what the clock shows. -/
inductive Call where
  | put (now : Text) (r : Record)
  | remove (id : Text)
  | clear
  | save

/-- The store after a call whose writing succeeds.  A call that fails leaves the store as it
was. -/
def call (s : Store) : Call → Store
  | .put now r =>
      match put? now r s with
      | some (next, _) => next
      | none => s
  | .remove id => (remove id s).1
  | .clear => (clear s).1
  | .save => save s

/-- The store after calls in order. -/
def run (s : Store) (calls : List Call) : Store :=
  calls.foldl call s

/-! ## Steps -/

/-- How the writing of the state file ends. -/
inductive Writing where
  | done
  /-- The file cannot be opened, and stays as it was. -/
  | refused
  /-- The file is emptied, and then the writing breaks off behind so many octets. -/
  | cut (length : Nat)

/-- The store behind a writing. -/
def Writing.leaves (w : Writing) (s : Store) : Store :=
  match w with
  | .done => save s
  | .refused => s
  | .cut length => { s with file := some ((Utf8.encode (fileText s.diagrams)).take length) }

/-- Why an operation fails. -/
inductive Failure where
  /-- A field is asked of something that is saved and is no object. -/
  | noFields
  /-- The times of two diagrams have no order. -/
  | noOrder
  | notWritten
deriving DecidableEq

/-- Steps on a store, which are not undone when a later one fails. -/
abbrev Steps := EStateM Failure Store

namespace Steps

def setDiagrams (diagrams : TextMap Json) : Steps Unit :=
  modify fun s => { s with diagrams := diagrams }

def write (w : Writing) : Steps Unit := do
  modify w.leaves
  match w with
  | .done => return
  | _ => throw .notWritten

def raiseVersion : Steps Unit :=
  modify fun s => { s with version := s.version + 1 }

/-- Changes the diagrams: in memory, then in the file, and then the version tells of it. -/
def change (w : Writing) (diagrams : TextMap Json) : Steps Unit := do
  setDiagrams diagrams
  write w
  raiseVersion

/-- The fields of what is under an identifier, none when it is void. -/
def fieldsAt (id : Text) : Steps (List (Text × Json)) := do
  let s ← getThe Store
  match ((s.diagrams.get? id).getD .null).fieldsOrVoid? with
  | some fields => return fields
  | none => throw .noFields

def put (w : Writing) (now : Text) (r : Record) : Steps Json := do
  let id := diagramId r.name
  let fields ← fieldsAt id
  let createdAt := creation now r (Json.givenField? fields "createdAt".toText)
  let saved := r.fieldsWith createdAt (.str now)
  change w ((← getThe Store).diagrams.insert id (.obj saved))
  return .obj (("id".toText, .str id) :: saved)

def remove (w : Writing) (id : Text) : Steps Bool := do
  let s ← getThe Store
  if (s.diagrams.get? id).isSome then
    change w (s.diagrams.erase id)
    return true
  else
    return false

def clear (w : Writing) : Steps Nat := do
  let s ← getThe Store
  change w TextMap.empty
  return s.diagrams.size

def list : Steps (List Json) := do
  match (← getThe Store).list? with
  | some summaries => return summaries
  | none => throw .noOrder

end Steps

/-! ## Operations -/

/-- What can be done with a store: to look at it, or to make a call. -/
inductive Operation where
  | list
  | get (today id : Text)
  | call (c : Call)

/-- What an operation answers. -/
inductive Answer where
  | listed (summaries : List Json)
  | looked (found : Lookup)
  | saved (entry : Json)
  | removed (there : Bool)
  | cleared (count : Nat)
  | written

/-- The steps of an operation. -/
def Operation.stepsWith (w : Writing) : Operation → Steps Answer
  | .list => return .listed (← Steps.list)
  | .get today id => return .looked (Store.get today id (← getThe Store))
  | .call (.put now r) => return .saved (← Steps.put w now r)
  | .call (.remove id) => return .removed (← Steps.remove w id)
  | .call .clear => return .cleared (← Steps.clear w)
  | .call .save => do
      Steps.write w
      return .written

/-- The steps of an operation whose writing succeeds. -/
def Operation.steps (op : Operation) : Steps Answer :=
  op.stepsWith .done

/-- The store that steps lead to, whether they failed or not. -/
def reached {α : Type} (steps : Steps α) (s : Store) : Store :=
  match steps s with
  | .ok _ next => next
  | .error _ next => next

/-- The store behind an operation. -/
def after (s : Store) (op : Operation) : Store :=
  reached op.steps s

/-- An operation, and how its writing ends. -/
structure Attempt where
  writing : Writing
  op : Operation

/-- The steps of an attempt. -/
def Attempt.steps (a : Attempt) : Steps Answer :=
  a.op.stepsWith a.writing

/-- The store behind attempts in order. -/
def behind (s : Store) (attempts : List Attempt) : Store :=
  attempts.foldl (fun s a => reached a.steps s) s

end Lifeline.Store
