/-!
# Searching a sorted list

The elements of a sorted list that have to stand in front of a new one are at
the front of the list.  How many there are is found without asking every
element: by halving the list, or, where few of them are expected, by leaps that
double in length until one goes too far.  Both answer `none` when an element
that they ask has no order with the new one.

Which elements are asked is a part of the result, since an order may be no order
at all on some elements, as it is on numbers when one is not a number.
-/

namespace Lifeline.Sorting

variable {α : Type}

/-- The way in which a list is read: as it is, or from its end. -/
inductive Direction where
  | forward
  | backward
deriving DecidableEq

/-- The place of the middle element in a stretch of a given length.  A stretch of
even length has two elements in its middle.  The one nearer to the end of the
whole list is taken, which comes first when the list is read from its end. -/
def Direction.middle : Direction → Nat → Nat
  | .forward, length => length / 2
  | .backward, length => (length - 1) / 2

/-- How many elements at the front of a list have a property, by asking the
middle one.  The number bounds the halvings. -/
def halve? (d : Direction) (p : α → Option Bool) : Nat → List α → Option Nat
  | 0, _ => some 0
  | fuel + 1, l =>
      let middle := d.middle l.length
      match l.drop middle with
      | [] => some 0
      | x :: back =>
          match p x with
          | none => none
          | some true => (halve? d p fuel back).map (middle + 1 + ·)
          | some false => halve? d p fuel (l.take middle)

/-- How many elements at the front of a list have a property. -/
def countByHalving? (d : Direction) (p : α → Option Bool) (l : List α) : Option Nat :=
  halve? d p l.length l

/-- How many elements have a property, when `known` elements in front of the list
are known to have it: a leap passes over as many again.  The number bounds the
leaps. -/
def leap? (d : Direction) (p : α → Option Bool) : Nat → Nat → List α → Option Nat
  | 0, known, _ => some known
  | fuel + 1, known, l =>
      match l.drop (known - 1) with
      | [] => (countByHalving? d p l).map (known + ·)
      | x :: back =>
          match p x with
          | none => none
          | some true => leap? d p fuel (2 * known) back
          | some false => (countByHalving? d p (l.take (known - 1))).map (known + ·)

/-- How many elements at the front of a list have a property, where few of them
are expected. -/
def countByLeaps? (d : Direction) (p : α → Option Bool) : List α → Option Nat
  | [] => some 0
  | x :: back =>
      match p x with
      | none => none
      | some true => leap? d p back.length 1 back
      | some false => some 0

end Lifeline.Sorting
