import Lifeline.Sorting.Search

/-!
# Merging two runs

Two runs that stand one behind the other are merged into one.  The elements at
the front of the first run and at the end of the second one that stay where they
are do not take part.  The others are merged from the front when the first run
has no more elements left than the second one, and else from the end, and the run
with fewer elements is called the shorter one.

The heads of the two runs are compared, and the one that goes first is taken.
When one run has given many elements in a row, it is searched by leaps instead.
How many these are is a matter of patience: it shrinks while leaps pay and grows
when they do not, and it is handed on from one merge to the next.
-/

namespace Lifeline.Sorting

variable {α : Type}

/-- A merge under way: what is merged, the last element first, and what is left
of the two runs. -/
structure Merge (α : Type) where
  merged : List α
  shorter : List α
  longer : List α

/-- How a merge goes on: by single elements, where one run has given the last few
in a row, or by leaps. -/
inductive Pace where
  | single (fromShorter fromLonger : Nat)
  | leaping

/-- The elements in a row that make leaps worth while: so many are asked for at
first, and by so many a leap has to pass for another one to follow. -/
def worthLeaping : Nat := 7

namespace Merge

/-- One run is used up, or one element is left of the shorter run.  That element
goes behind the longer run, since what goes behind it took no part. -/
def isOver (m : Merge α) : Bool :=
  match m.shorter, m.longer with
  | [], _ => true
  | [_], _ => true
  | _, [] => true
  | _, _ => false

/-- What a merge that is over results in. -/
def result (m : Merge α) : List α :=
  m.merged.reverse ++ m.longer ++ m.shorter

/-- Takes elements from the shorter run. -/
def takeShorter (n : Nat) (m : Merge α) : Merge α :=
  { m with merged := (m.shorter.take n).reverse ++ m.merged, shorter := m.shorter.drop n }

/-- Takes elements from the longer run. -/
def takeLonger (n : Nat) (m : Merge α) : Merge α :=
  { m with merged := (m.longer.take n).reverse ++ m.merged, longer := m.longer.drop n }

/-! In what follows, `ahead? x y` says that `x` of the longer run goes before `y`
of the shorter one. -/

/-- Takes the head that goes first, and says whether it is from the longer
run. -/
def takeHead? (ahead? : α → α → Option Bool) (m : Merge α) : Option (Merge α × Bool) :=
  match m.longer, m.shorter with
  | x :: _, y :: _ =>
      (ahead? x y).map fun b => (if b then m.takeLonger 1 else m.takeShorter 1, b)
  | _, _ => some (m, false)

/-- Takes from the shorter run what goes before the head of the longer one, then
that head.  Says how many elements the leap passed. -/
def leapShorter? (d : Direction) (ahead? : α → α → Option Bool) (m : Merge α) :
    Option (Merge α × Nat) :=
  match m.longer with
  | [] => some (m, 0)
  | x :: _ =>
      (countByLeaps? d (fun y => (ahead? x y).map not) m.shorter).map fun k =>
        let m := m.takeShorter k
        (if m.isOver then m else m.takeLonger 1, k)

/-- Takes from the longer run what goes before the head of the shorter one, then
that head.  Says how many elements the leap passed. -/
def leapLonger? (d : Direction) (ahead? : α → α → Option Bool) (m : Merge α) :
    Option (Merge α × Nat) :=
  match m.shorter with
  | [] => some (m, 0)
  | y :: _ =>
      (countByLeaps? d (fun x => ahead? x y) m.longer).map fun k =>
        let m := m.takeLonger k
        (if m.isOver then m else m.takeShorter 1, k)

/-- Leaps in both runs, first in the one that stands in front.  Says how many
elements the longer leap passed. -/
def leapBoth? (d : Direction) (ahead? : α → α → Option Bool) (m : Merge α) :
    Option (Merge α × Nat) :=
  let leap? (inShorter : Bool) (m : Merge α) : Option (Merge α × Nat) :=
    if m.isOver then some (m, 0)
    else if inShorter then leapShorter? d ahead? m
    else leapLonger? d ahead? m
  match leap? (d = .forward) m with
  | none => none
  | some (m, j) => (leap? (d = .backward) m).map fun (m, k) => (m, max j k)

/-- One move of a merge, with the pace and the patience for the next one. -/
def move? (d : Direction) (ahead? : α → α → Option Bool) (pace : Pace) (patience : Nat)
    (m : Merge α) : Option (Merge α × Pace × Nat) :=
  match pace with
  | .single i j =>
      (m.takeHead? ahead?).map fun (m, fromLonger) =>
        let (i, j) := if fromLonger then (0, j + 1) else (i + 1, 0)
        (m, if patience ≤ max i j then .leaping else .single i j, patience)
  | .leaping =>
      (m.leapBoth? d ahead?).map fun (m, passed) =>
        if worthLeaping ≤ passed then (m, .leaping, max 1 (patience - 1))
        else (m, .single 0 0, patience + 1)

/-- Runs a merge to its end.  Gives the result, and the patience for the next
merge, which the last move leaves as it is.  The number bounds the moves. -/
def run? (d : Direction) (ahead? : α → α → Option Bool) :
    Nat → Pace → Nat → Merge α → Option (List α × Nat)
  | 0, _, patience, m => some (m.result, patience)
  | fuel + 1, pace, patience, m =>
      if m.isOver then some (m.result, patience)
      else
        match m.move? d ahead? pace patience with
        | none => none
        | some (m, pace, next) => run? d ahead? fuel pace (if m.isOver then patience else next) m

/-- Merges two runs.  The head of the longer one is known to go first. -/
def start? (d : Direction) (ahead? : α → α → Option Bool) (patience : Nat)
    (shorter longer : List α) : Option (List α × Nat) :=
  let m : Merge α := ⟨[], shorter, longer⟩
  run? d ahead? (shorter.length + longer.length) (.single 0 0) patience (m.takeLonger 1)

end Merge

/-- Merges the elements of two runs that take part, from the front or from the
end. -/
def mergeInner? (less? : α → α → Option Bool) (patience : Nat) (front back : List α) :
    Option (List α × Nat) :=
  if front.length ≤ back.length then
    Merge.start? .forward less? patience front back
  else
    (Merge.start? .backward (fun x y => less? y x) patience back.reverse front.reverse).map
      fun (l, patience) => (l.reverse, patience)

/-- Merges two runs of which the second one stands behind the first one.  Gives
the merged run and the patience for the next merge. -/
def mergeRuns? (less? : α → α → Option Bool) (patience : Nat) (front back : List α) :
    Option (List α × Nat) :=
  match back with
  | [] => some (front, patience)
  | head :: _ =>
      match countByLeaps? .forward (fun x => (less? head x).map not) front with
      | none => none
      | some k =>
          match (front.drop k).getLast? with
          | none => some (front ++ back, patience)
          | some last =>
              let inOrder (x : α) : Option Bool := (less? x last).map not
              match countByLeaps? .backward inOrder back.reverse with
              | none => none
              | some n =>
                  let inner := back.take (back.length - n)
                  if inner.isEmpty then some (front ++ back, patience)
                  else
                    (mergeInner? less? patience (front.drop k) inner).map fun (l, patience) =>
                      (front.take k ++ l ++ back.drop (back.length - n), patience)

end Lifeline.Sorting
