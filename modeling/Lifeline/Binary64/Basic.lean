/-!
# Numbers of double precision

A finite number of the format binary64 is a sign and a rank: the magnitudes are
numbered upwards from zero, and the rank of a magnitude is its number.  Since
all magnitudes are multiples of the smallest positive one, everything here is
arithmetic on natural numbers, and reading and writing are exact.
-/

namespace Lifeline

/-- How many magnitudes there are below the smallest normal one, and again in
each doubling from there on. -/
abbrev Binary64.ranksPerDoubling : Nat := Nat.pow 2 52

/-- How many finite magnitudes there are. -/
abbrev Binary64.finiteRanks : Nat := 2047 * Binary64.ranksPerDoubling

/-- How often the smallest positive magnitude goes into one. -/
abbrev Binary64.unitsPerOne : Nat := Nat.pow 2 1074

/-- A number of the format binary64. -/
inductive Binary64 where
  | finite (negative : Bool) (rank : Fin Binary64.finiteRanks)
  | infinite (negative : Bool)
  | notANumber
deriving DecidableEq

namespace Binary64

/-- The magnitude with a rank, measured in the smallest positive magnitude,
2 to the power −1074. -/
def units (rank : Nat) : Nat :=
  if rank < ranksPerDoubling then
    rank
  else
    (ranksPerDoubling + rank % ranksPerDoubling) * Nat.pow 2 (rank / ranksPerDoubling - 1)

/-- The quotient rounded to the nearest natural number, a half to the even
one. -/
def divHalfEven (num den : Nat) : Nat :=
  let q := num / den
  let r := num % den
  if 2 * r < den then q else if den < 2 * r then q + 1 else q + q % 2

/-- The rank of the magnitude nearest to a quotient, measured in units, where
the exponent has no upper end; of two equally near ones the even.  A number
below 2 to the power 53 is rounded to a whole number of units, and every
doubling doubles the spacing. -/
def nearestRank (num den : Nat) : Nat :=
  let shift := (num / den).log2 - 52
  shift * ranksPerDoubling + divHalfEven num (den * Nat.pow 2 shift)

/-- The number with a rank, infinite when the rank is beyond the finite
ones. -/
def ofRank (negative : Bool) (rank : Nat) : Binary64 :=
  if h : rank < finiteRanks then .finite negative ⟨rank, h⟩ else .infinite negative

/-- A decimal number: `digits` times 10 to the power `exponent`. -/
structure Decimal where
  digits : Nat
  exponent : Int
deriving DecidableEq

/-- The rank of the magnitude nearest to a decimal number. -/
def rankOfDecimal (d : Decimal) : Nat :=
  match d.exponent with
  | .ofNat e => nearestRank (d.digits * Nat.pow 10 e * unitsPerOne) 1
  | .negSucc e => nearestRank (d.digits * unitsPerOne) (Nat.pow 10 (e + 1))

/-- The number nearest to a decimal number with a sign.  A decimal number whose
first digit stands more than 400 places away from the point is beyond the range
of the format on either side, and no power of ten is built for it. -/
def ofDecimal (negative : Bool) (d : Decimal) : Binary64 :=
  let place := d.exponent + (Nat.toDigits 10 d.digits).length
  if d.digits = 0 ∨ place < -400 then ofRank negative 0
  else if 400 < place then .infinite negative
  else ofRank negative (rankOfDecimal d)

/-- The number is zero, with either sign. -/
def isZero : Binary64 → Bool
  | .finite _ rank => rank.val == 0
  | _ => false

/-- The number is finite. -/
def isFinite : Binary64 → Bool
  | .finite _ _ => true
  | _ => false

/-! ## Order

The order of numbers is exact also between this format and the integers: both
are compared as whole numbers of units. -/

/-- A number on the extended line of units. -/
inductive Place where
  | below
  | at (units : Int)
  | above
  | nowhere
deriving DecidableEq

/-- Where a number stands. -/
def place : Binary64 → Place
  | .finite negative rank =>
      .at (if negative then -(units rank.val : Int) else (units rank.val : Int))
  | .infinite true => .below
  | .infinite false => .above
  | .notANumber => .nowhere

/-- Where an integer stands. -/
def placeOfInt (n : Int) : Place :=
  .at (n * unitsPerOne)

/-- One place is left of another; `nowhere` is left of nothing. -/
def Place.less : Place → Place → Bool
  | .nowhere, _ => false
  | _, .nowhere => false
  | .at a, .at b => a < b
  | .below, .below => false
  | .below, _ => true
  | _, .below => false
  | .above, _ => false
  | .at _, .above => true

end Binary64
end Lifeline
