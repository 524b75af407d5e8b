import Lifeline.Sorting.Merge
import Lifeline.Sorting.Run

/-!
# Sorting with an order that may fail

Some pairs of elements have no order, and then a list that compares such a pair
cannot be sorted.  An order may also be no order at all on some elements, as it
is on numbers when one is not a number.  So it is fixed which pairs are
compared: the list is cut into runs, and neighbouring runs are merged until one
is left.  When the order is total, the result is the sorted list, and elements
that are equal keep their order.

The plan of the merges comes from the boundaries between the runs.  Cut the list
into halves, quarters and so on; the depth of a boundary is the number of
halvings that bring the middles of the two runs beside it into different pieces.
Runs are merged at a boundary before they are merged at one of less depth.
-/

namespace Lifeline.Sorting

variable {α : Type}

/-- How often a list of a given size is halved until two places are in different
pieces.  The places are counted in half elements, since the middle of a run may
be in the middle of an element.  The first number bounds the halvings. -/
def halvings (size : Nat) : Nat → Nat → Nat → Nat
  | 0, _, _ => 1
  | fuel + 1, a, b => if a / size = b / size then halvings size fuel (2 * a) (2 * b) + 1 else 1

/-- The depth of the boundary between two runs of given lengths, of which the
first one begins at a given place. -/
def boundaryDepth (size place front back : Nat) : Nat :=
  halvings size size (2 * place + front) (2 * place + 2 * front + back)

/-- Runs that wait to be merged. -/
structure Waiting (α : Type) where
  /-- The last run. -/
  last : List α
  /-- The runs before it, the nearest first, each with the depth of the boundary
  behind it. -/
  earlier : List (List α × Nat)
  /-- The patience for the next merge. -/
  patience : Nat

namespace Waiting

/-- Where the last run begins. -/
def place (w : Waiting α) : Nat :=
  w.earlier.foldl (fun n e => n + e.1.length) 0

/-- Merges the last run with those before it, as long as the boundary between
them is deeper than a given depth. -/
def settle? (less? : α → α → Option Bool) (depth : Nat) (last : List α) (patience : Nat) :
    List (List α × Nat) → Option (Waiting α)
  | [] => some ⟨last, [], patience⟩
  | (run, d) :: earlier =>
      if depth < d then
        match mergeRuns? less? patience run last with
        | none => none
        | some (last, patience) => settle? less? depth last patience earlier
      else
        some ⟨last, (run, d) :: earlier, patience⟩

/-- Puts a run behind those that wait. -/
def push? (less? : α → α → Option Bool) (size : Nat) (run : List α) (w : Waiting α) :
    Option (Waiting α) :=
  let depth := boundaryDepth size w.place w.last.length run.length
  (settle? less? depth w.last w.patience w.earlier).map fun w =>
    ⟨run, (w.last, depth) :: w.earlier, w.patience⟩

/-- Merges all runs, the last ones first.  Where the last run is longer than the
last but two, the one between them is merged with the latter. -/
def merge? (less? : α → α → Option Bool) (last beforeLast : List α) (patience : Nat) :
    List (List α × Nat) → Option (List α)
  | [] => (mergeRuns? less? patience beforeLast last).map fun m => m.1
  | (run, _) :: earlier =>
      if run.length < last.length then
        match mergeRuns? less? patience run beforeLast with
        | none => none
        | some (merged, patience) => merge? less? last merged patience earlier
      else
        match mergeRuns? less? patience beforeLast last with
        | none => none
        | some (merged, patience) => merge? less? merged run patience earlier

/-- The list that the runs are merged into. -/
def result? (less? : α → α → Option Bool) (w : Waiting α) : Option (List α) :=
  match w.earlier with
  | [] => some w.last
  | (run, _) :: earlier => merge? less? w.last run w.patience earlier

/-- Puts runs behind those that wait, and merges all of them. -/
def mergeAll? (less? : α → α → Option Bool) (size : Nat) : List (List α) → Waiting α →
    Option (List α)
  | [], w => w.result? less?
  | run :: runs, w =>
      match w.push? less? size run with
      | none => none
      | some w => mergeAll? less? size runs w

end Waiting

/-- Sorts a list, the least element first; `none` when two elements that are
compared have no order. -/
def sort? (less? : α → α → Option Bool) (l : List α) : Option (List α) :=
  match runs? less? l with
  | none => none
  | some [] => some []
  | some (run :: runs) => Waiting.mergeAll? less? l.length runs ⟨run, [], worthLeaping⟩

/-- Sorts a list, the greatest element first.  Equal elements keep their order
here too. -/
def sortDown? (less? : α → α → Option Bool) (l : List α) : Option (List α) :=
  (sort? less? l.reverse).map List.reverse

end Lifeline.Sorting
