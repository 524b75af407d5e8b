import Lifeline.Store.Basic

/-!
# Watching a store

A watcher waits until the version of a store exceeds a given one.  All watchers
of a store share a flag that each change raises.  A watcher that finds nothing
new lowers the flag and parks; the change that raises the flag releases every
watcher that is parked at that moment, and a released watcher looks at the
version again when its turn comes.  Between two turns nothing runs, so a turn is
one step of this model.
-/

namespace Lifeline

/-- A watcher: parked, released but not yet run, or done with the version that
it gives back. -/
inductive Watcher where
  | parked (since : Int)
  | released (since : Int)
  | done (version : Nat)
deriving DecidableEq

/-- A watcher after the flag was raised. -/
def Watcher.release : Watcher → Watcher
  | .parked since => .released since
  | w => w

/-- The version that a watcher gives back, once it is done. -/
def Watcher.version? : Watcher → Option Nat
  | .done version => some version
  | _ => none

/-- A version, the flag for its changes, which exists once somebody has
watched, and the watchers. -/
structure Watch where
  version : Nat
  flag : Option Bool
  watchers : List Watcher
deriving DecidableEq

namespace Watch

/-- A version that nobody watches. -/
def start (version : Nat) : Watch :=
  ⟨version, none, []⟩

/-- A change: the next version, and the flag is raised if there is one.
Watchers are released when the flag was down. -/
def bump (w : Watch) : Watch :=
  match w.flag with
  | none => { w with version := w.version + 1 }
  | some true => { w with version := w.version + 1 }
  | some false =>
      { version := w.version + 1, flag := some true, watchers := w.watchers.map Watcher.release }

/-- A watcher's turn, on its arrival or after its release: it is done when the
version exceeds `since`, and otherwise lowers the flag and parks. -/
def turn (w : Watch) (since : Int) : Watch × Watcher :=
  if since < w.version then
    ({ w with flag := some (w.flag.getD false) }, .done w.version)
  else
    ({ w with flag := some false }, .parked since)

/-- A watcher arrives; its number is the count of those before it. -/
def arrive (since : Int) (w : Watch) : Watch :=
  let (w, watcher) := w.turn since
  { w with watchers := w.watchers ++ [watcher] }

/-- The turn of a watcher that was released; other watchers have no turn. -/
def resume (number : Nat) (w : Watch) : Watch :=
  match w.watchers[number]? with
  | some (.released since) =>
      let (w, watcher) := w.turn since
      { w with watchers := w.watchers.set number watcher }
  | _ => w

/-- Lets the first watchers have their turns. -/
def settleFirst : Nat → Watch → Watch
  | 0, w => w
  | count + 1, w => resume count (settleFirst count w)

/-- Lets every released watcher have its turn. -/
def settle (w : Watch) : Watch :=
  settleFirst w.watchers.length w

/-- Takes note of a store after an operation, which raises its version by one at
most. -/
def follow (s : Store) (w : Watch) : Watch :=
  if w.version < s.version then w.bump else w

/-- The version that a watcher gives back, once it is done. -/
def result? (number : Nat) (w : Watch) : Option Nat :=
  w.watchers[number]?.bind Watcher.version?

end Watch
end Lifeline
