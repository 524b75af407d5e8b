import Lifeline.Share.Error
import Lifeline.Text.Utf8

/-!
# Octets in URLs

Three octets are four digits of base 64.  The digits are letters, decimal
digits, the hyphen and the underscore; no padding is written.  The reader also
takes plus and slash for the last two digits, and any padding that fits.
-/

namespace Lifeline.Share.Base64

/-- The digits in order. -/
def alphabet : Text :=
  "ABCDEFGHIJKLMNOPQRSTUVWXYZabcdefghijklmnopqrstuvwxyz0123456789-_".toText

/-- The digit with a value below 64. -/
def digit (n : Nat) : CodePoint :=
  alphabet.getD n 'A'

/-- The value of a digit. -/
def value? (c : CodePoint) : Option Nat :=
  let n := c.toNat
  if 65 ≤ n ∧ n ≤ 90 then some (n - 65)
  else if 97 ≤ n ∧ n ≤ 122 then some (n - 71)
  else if 48 ≤ n ∧ n ≤ 57 then some (n + 4)
  else if c = '-' ∨ c = '+' then some 62
  else if c = '_' ∨ c = '/' then some 63
  else none

/-- Writes octets. -/
def encode : Bytes → Text
  | [] => []
  | [a] => [digit (a.toNat / 4), digit (a.toNat % 4 * 16)]
  | [a, b] =>
      [digit (a.toNat / 4), digit (a.toNat % 4 * 16 + b.toNat / 16), digit (b.toNat % 16 * 4)]
  | a :: b :: c :: rest =>
      digit (a.toNat / 4) :: digit (a.toNat % 4 * 16 + b.toNat / 16) ::
        digit (b.toNat % 16 * 4 + c.toNat / 64) :: digit (c.toNat % 64) :: encode rest

/-- The values of digits, if all are digits. -/
def values? : Text → Option (List Nat)
  | [] => some []
  | c :: rest =>
      match value? c with
      | none => none
      | some n => (values? rest).map (n :: ·)

/-- The octets of the values of digits.  Bits that fill no octet are left
out. -/
def octets : List Nat → Bytes
  | a :: b :: c :: d :: rest =>
      UInt8.ofNat (a * 4 + b / 16) :: UInt8.ofNat (b % 16 * 16 + c / 4) ::
        UInt8.ofNat (c % 4 * 64 + d) :: octets rest
  | [a, b, c] => [UInt8.ofNat (a * 4 + b / 16), UInt8.ofNat (b % 16 * 16 + c / 4)]
  | [a, b] => [UInt8.ofNat (a * 4 + b / 16)]
  | _ => []

/-- The padding behind some number of digits is right: none is needed behind
whole groups, but behind no digits at all none may stand; otherwise it fills
the group. -/
def paddingFits (digits padding : Nat) : Bool :=
  match digits % 4 with
  | 0 => digits != 0 || padding == 0
  | 2 => padding == 2
  | 3 => padding == 1
  | _ => false

/-- Reads octets.  A text is first filled up with padding to whole groups of
four. -/
def decode (t : Text) : Except DecodeError Bytes :=
  let digits := t.takeWhile (· ≠ .char '=')
  let padding := t.dropWhile (· ≠ .char '=')
  let filled := padding.length + (4 - t.length % 4) % 4
  match values? digits with
  | none => .error .notBase64
  | some ns =>
      if padding.all (· == '=') && paddingFits digits.length filled then
        .ok (octets ns)
      else
        .error .notBase64

end Lifeline.Share.Base64
