import Lifeline.Binary64.Basic
import Lifeline.Text.Quoted

/-!
# Numbers of double precision as text

A finite number is written with the fewest decimal digits that read back as the
same number, and of those with the nearest ones.  The writer tries each count
of digits in turn and asks the reader, so that what it writes reads back by
construction; if no short form did, it would write the exact value.
-/

namespace Lifeline.Binary64

/-- Drops the last digits of a number while they are zeros; the first argument
bounds how many. -/
def dropZeros : Nat → Decimal → Decimal
  | 0, d => d
  | fuel + 1, d =>
      if d.digits % 10 = 0 ∧ d.digits ≠ 0 then
        dropZeros fuel ⟨d.digits / 10, d.exponent + 1⟩
      else
        d

/-- The exact decimal value of a magnitude. -/
def exactDecimal (rank : Nat) : Decimal :=
  ⟨units rank * Nat.pow 5 1074, -1074⟩

/-- The power of ten of the first decimal digit of a positive magnitude. -/
def leadingPower (rank : Nat) : Int :=
  ((Nat.toDigits 10 (units rank * Nat.pow 10 330 / unitsPerOne)).length : Int) - 331

/-- A magnitude divided by 10 to the power `exponent`, as a quotient. -/
def scaled (rank : Nat) (exponent : Int) : Nat × Nat :=
  match exponent with
  | .ofNat e => (units rank, unitsPerOne * Nat.pow 10 e)
  | .negSucc e => (units rank * Nat.pow 10 (e + 1), unitsPerOne)

/-- A decimal number reads back as the magnitude. -/
def readsBack (rank : Nat) (d : Decimal) : Bool :=
  rankOfDecimal d == rank

/-- Of the two neighbours of a magnitude among the multiples of 10 to the power
`exponent` the nearer one that reads back; on a tie the even one. -/
def neighbour? (rank : Nat) (exponent : Int) : Option Decimal :=
  let (num, den) := scaled rank exponent
  let low : Decimal := ⟨num / den, exponent⟩
  let high : Decimal := ⟨num / den + 1, exponent⟩
  let near := if divHalfEven num den = low.digits then low else high
  let far := if near = low then high else low
  if readsBack rank near then some near
  else if readsBack rank far then some far
  else none

/-- The decimal number that a positive magnitude is written as. -/
def shortest (rank : Nat) : Decimal :=
  let power := leadingPower rank
  let found := (List.range 17).findSome? fun (count : Nat) =>
    neighbour? rank (power - count)
  let d := found.getD (exactDecimal rank)
  dropZeros (Nat.toDigits 10 d.digits).length d

/-- Writes digits with a point so that the first digit has the place value 10
to the power `power`.  Without a power sign for powers from −4 to 15, and then
with at least one digit behind the point. -/
def layOut (digits : Text) (power : Int) : Text :=
  if -4 ≤ power ∧ power < 16 then
    if power < 0 then
      "0.".toText ++ List.replicate (-power - 1).toNat (.char '0') ++ digits
    else
      let whole := digits.take (power.toNat + 1)
      let fraction := digits.drop (power.toNat + 1)
      whole ++ List.replicate (power.toNat + 1 - whole.length) (.char '0') ++
        .char '.' :: (if fraction.isEmpty then [.char '0'] else fraction)
  else
    let exponent := Text.ofNat power.natAbs
    digits.take 1 ++ (if digits.length = 1 then [] else .char '.' :: digits.drop 1) ++
      .char 'e' :: (if power < 0 then .char '-' else .char '+') ::
        (List.replicate (2 - exponent.length) (.char '0') ++ exponent)

/-- A magnitude as text. -/
def magnitudeText (rank : Nat) : Text :=
  if rank = 0 then
    "0.0".toText
  else
    let d := shortest rank
    let digits := Text.ofNat d.digits
    layOut digits (d.exponent + digits.length - 1)

/-- A finite number as text. -/
def finiteText (negative : Bool) (rank : Nat) : Text :=
  if negative then '-' :: magnitudeText rank else magnitudeText rank

end Lifeline.Binary64
