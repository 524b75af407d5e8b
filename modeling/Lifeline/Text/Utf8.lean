import Lifeline.Text.Blank

/-!
# UTF-8

Bytes are read into units: a character, or a fault that stands for the longest
beginning of a well-formed sequence that goes no further.  A strict reader
refuses every fault, a tolerant one drops it or puts the replacement character
in its place; they all read the same units.

Half of a surrogate pair has no UTF-8.  What is written for it is a fault to the
readers, except to one that lets surrogates through.
-/

namespace Lifeline

/-- A sequence of octets. -/
abbrev Bytes := List UInt8

namespace Utf8

/-- The octets of a code point. -/
def encodeChar (c : CodePoint) : Bytes :=
  let n := c.toNat
  if n < 0x80 then
    [UInt8.ofNat n]
  else if n < 0x800 then
    [UInt8.ofNat (0xC0 + n / 64), UInt8.ofNat (0x80 + n % 64)]
  else if n < 0x10000 then
    [UInt8.ofNat (0xE0 + n / 4096), UInt8.ofNat (0x80 + n / 64 % 64),
      UInt8.ofNat (0x80 + n % 64)]
  else
    [UInt8.ofNat (0xF0 + n / 262144), UInt8.ofNat (0x80 + n / 4096 % 64),
      UInt8.ofNat (0x80 + n / 64 % 64), UInt8.ofNat (0x80 + n % 64)]

/-- The octets of a text, with those of surrogates. -/
def encode (t : Text) : Bytes :=
  t.flatMap encodeChar

/-- The UTF-8 of a text; `none` when there is a surrogate in it. -/
def encode? (t : Text) : Option Bytes :=
  if t.isScalar then some (encode t) else none

/-- Reads `count` more octets of a sequence whose first octets gave `value`.
The next octet lies between `low` and `high`, later ones between 0x80 and
0xBF.  The answer holds the character, if the sequence is complete, and the
number of octets it takes; `used` octets came before. -/
def sequence : Nat → Nat → Nat → Nat → Nat → Bytes → Option CodePoint × Nat
  | 0, _, _, value, used, _ => (some (.ofNat value), used)
  | _ + 1, _, _, _, used, [] => (none, used)
  | count + 1, low, high, value, used, b :: rest =>
      if low ≤ b.toNat ∧ b.toNat ≤ high then
        sequence count 0x80 0xBF (value * 64 + (b.toNat - 0x80)) (used + 1) rest
      else
        (none, used)

/-- The unit that begins with an octet, and its length.  Encoded surrogates are
faults unless they are let through. -/
def unit (surrogates : Bool) (b : UInt8) (rest : Bytes) : Option CodePoint × Nat :=
  let n := b.toNat
  if n < 0x80 then
    (some (.ofNat n), 1)
  else if n < 0xC2 then
    (none, 1)
  else if n < 0xE0 then
    sequence 1 0x80 0xBF (n - 0xC0) 1 rest
  else if n < 0xF0 then
    sequence 2 (if n = 0xE0 then 0xA0 else 0x80)
      (if n = 0xED ∧ surrogates = false then 0x9F else 0xBF) (n - 0xE0) 1 rest
  else if n < 0xF5 then
    sequence 3 (if n = 0xF0 then 0x90 else 0x80) (if n = 0xF4 then 0x8F else 0xBF)
      (n - 0xF0) 1 rest
  else
    (none, 1)

/-- The units of a sequence of octets; the number says how many octets of the
last unit are still to be passed over. -/
def unitsFrom (surrogates : Bool) : Nat → Bytes → List (Option CodePoint)
  | _, [] => []
  | skip + 1, _ :: rest => unitsFrom surrogates skip rest
  | 0, b :: rest =>
      let (c, length) := unit surrogates b rest
      c :: unitsFrom surrogates (length - 1) rest

/-- All characters, if there is no fault. -/
def allSome : List (Option CodePoint) → Option Text
  | [] => some []
  | none :: _ => none
  | some c :: rest => (allSome rest).map (c :: ·)

/-- The text of well-formed UTF-8; `none` for anything else. -/
def decode? (bytes : Bytes) : Option Text :=
  allSome (unitsFrom false 0 bytes)

/-- As `decode?`, but surrogates are let through. -/
def decodeSurrogates? (bytes : Bytes) : Option Text :=
  allSome (unitsFrom true 0 bytes)

/-- Reads UTF-8 and leaves out what is not well-formed. -/
def decodeDropping (bytes : Bytes) : Text :=
  (unitsFrom false 0 bytes).filterMap id

/-- Reads UTF-8 with one replacement character for each fault. -/
def decodeReplacing (bytes : Bytes) : Text :=
  (unitsFrom false 0 bytes).map fun c => c.getD .replacement

end Utf8
end Lifeline
