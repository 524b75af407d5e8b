import Lifeline.Share.Error
import Lifeline.Text.Utf8

/-!
# Packed integers

An integer below 2 to the power 21 is written in one to three octets, seven
bits in each, the highest first.  Every octet but the last has its highest bit
set.
-/

namespace Lifeline.Share.Packing

/-- The integers from this one on have no packed form. -/
def limit : Nat := 2097152

/-- The octets of an integer below the limit. -/
def octets (n : Nat) : Bytes :=
  if n < 128 then
    [UInt8.ofNat n]
  else if n < 16384 then
    [UInt8.ofNat (128 + n / 128), UInt8.ofNat (n % 128)]
  else
    [UInt8.ofNat (128 + n / 16384), UInt8.ofNat (128 + n / 128 % 128), UInt8.ofNat (n % 128)]

/-- Packs integers. -/
def pack : List Int → Except EncodeError Bytes
  | [] => .ok []
  | n :: rest =>
      if n < 0 ∨ limit ≤ n then
        .error (.outOfRange n)
      else
        match pack rest with
        | .ok bytes => .ok (octets n.toNat ++ bytes)
        | .error e => .error e

/-- Unpacks octets when `count` octets of an integer have been read and gave
`value`. -/
def unpackFrom (value count : Nat) : Bytes → Except DecodeError (List Nat)
  | [] => if count = 0 then .ok [] else .error .integerCut
  | b :: rest =>
      if 3 ≤ count then
        .error .integerTooLong
      else if b.toNat < 128 then
        match unpackFrom 0 0 rest with
        | .ok ns => .ok ((value * 128 + b.toNat) :: ns)
        | .error e => .error e
      else
        unpackFrom (value * 128 + (b.toNat - 128)) (count + 1) rest

/-- Unpacks octets. -/
def unpack (bytes : Bytes) : Except DecodeError (List Nat) :=
  unpackFrom 0 0 bytes

end Lifeline.Share.Packing
