import Lifeline.Sorting.Search

/-!
# Runs

A run is a stretch of a list in which the elements rise, or in which they fall;
one that falls is turned round.  A list is cut into runs from its front.  A run
that turns out short takes in the elements behind it, one by one.
-/

namespace Lifeline.Sorting

variable {α : Type}

/-- Puts an element into a sorted list behind those that it is not less than. -/
def place? (less? : α → α → Option Bool) (new : α) (l : List α) : Option (List α) :=
  (countByHalving? .forward (fun x => (less? new x).map not) l).map fun k =>
    l.take k ++ new :: l.drop k

/-- Puts elements into a sorted list, one after the other. -/
def placeAll? (less? : α → α → Option Bool) : List α → List α → Option (List α)
  | [], l => some l
  | new :: rest, l =>
      match place? less? new l with
      | none => none
      | some l => placeAll? less? rest l

/-- The elements that continue a run behind `last`, and the others.  Each element
of a falling run is less than the one before it, and no element of a rising run
is. -/
def continueRun? (less? : α → α → Option Bool) (falling : Bool) (last : α) :
    List α → Option (List α × List α)
  | [] => some ([], [])
  | x :: rest =>
      match less? x last with
      | none => none
      | some b =>
          if b = falling then
            (continueRun? less? falling x rest).map fun (run, others) => (x :: run, others)
          else
            some ([], x :: rest)

/-- The run at the front of a list, turned round when it falls, and the other
elements. -/
def firstRun? (less? : α → α → Option Bool) : List α → Option (List α × List α)
  | x :: y :: rest =>
      match less? y x with
      | none => none
      | some falling =>
          (continueRun? less? falling y rest).map fun (run, others) =>
            (if falling then (x :: y :: run).reverse else x :: y :: run, others)
  | l => some (l, [])

/-- The run at the front of a list with the elements that it takes in to have
`least` elements, and the other elements. -/
def fullRun? (less? : α → α → Option Bool) (least : Nat) (l : List α) :
    Option (List α × List α) :=
  match firstRun? less? l with
  | none => none
  | some (run, others) =>
      let missing := least - run.length
      (placeAll? less? (others.take missing) run).map fun run => (run, others.drop missing)

/-- Cuts a list into runs of `least` elements or more, as long as there are so
many.  The number bounds the cuts. -/
def cutRuns? (less? : α → α → Option Bool) (least : Nat) : Nat → List α → Option (List (List α))
  | _, [] => some []
  | 0, _ => some []
  | fuel + 1, l =>
      match fullRun? less? least l with
      | none => none
      | some (run, others) => (cutRuns? less? least fuel others).map (run :: ·)

/-- How many elements a run of a list has at least: all of them when there are
fewer than 64, and else between 32 and 64, so that the number of full runs is a
power of two or a little less. -/
def leastRun (size : Nat) : Nat :=
  let share := 1 <<< (size.log2 - 5)
  (size + share - 1) / share

/-- The runs of a list. -/
def runs? (less? : α → α → Option Bool) (l : List α) : Option (List (List α)) :=
  cutRuns? less? (leastRun l.length) l.length l

end Lifeline.Sorting
