import Lifeline.Json.Reader

/-!
# JSON in octets

JSON may come in UTF-8, UTF-16 or UTF-32.  A byte order mark decides, and
without one the place of the zero octets, since a JSON text begins with an
ASCII character.
-/

namespace Lifeline.Json

/-- The encodings of JSON. -/
inductive Encoding where
  | utf8
  | utf16 (bigEndian : Bool)
  | utf32 (bigEndian : Bool)
deriving DecidableEq

/-- The encoding that the first octets show, when there is no mark. -/
def guessEncoding : Bytes → Encoding
  | [a, b] => if a = 0 then .utf16 true else if b = 0 then .utf16 false else .utf8
  | a :: b :: c :: d :: _ =>
      if a = 0 then
        if b = 0 then .utf32 true else .utf16 true
      else if b = 0 then
        if c = 0 ∧ d = 0 then .utf32 false else .utf16 false
      else
        .utf8
  | _ => .utf8

/-- The encoding of octets, and the octets behind the mark. -/
def detectEncoding : Bytes → Encoding × Bytes
  | 0x00 :: 0x00 :: 0xFE :: 0xFF :: rest => (.utf32 true, rest)
  | 0xFF :: 0xFE :: 0x00 :: 0x00 :: rest => (.utf32 false, rest)
  | 0xFE :: 0xFF :: rest => (.utf16 true, rest)
  | 0xFF :: 0xFE :: rest => (.utf16 false, rest)
  | 0xEF :: 0xBB :: 0xBF :: rest => (.utf8, rest)
  | bytes => (guessEncoding bytes, bytes)

/-- Numbers of 16 bits; `none` for an odd number of octets. -/
def pairs? (bigEndian : Bool) : Bytes → Option (List Nat)
  | [] => some []
  | [_] => none
  | a :: b :: rest =>
      let n := if bigEndian then a.toNat * 256 + b.toNat else b.toNat * 256 + a.toNat
      (pairs? bigEndian rest).map (n :: ·)

/-- Numbers of 32 bits; `none` when octets are left over. -/
def quads? (bigEndian : Bool) : Bytes → Option (List Nat)
  | [] => some []
  | a :: b :: c :: d :: rest =>
      let n :=
        if bigEndian then ((a.toNat * 256 + b.toNat) * 256 + c.toNat) * 256 + d.toNat
        else ((d.toNat * 256 + c.toNat) * 256 + b.toNat) * 256 + a.toNat
      (quads? bigEndian rest).map (n :: ·)
  | _ => none

/-- The text of numbers of 32 bits; `none` beyond the last code point. -/
def ofCodePoints? (ns : List Nat) : Option Text :=
  if ns.all (· ≤ 0x10FFFF) then some (ns.map CodePoint.ofNat) else none

/-- The text of JSON in octets.  Half a surrogate pair is read as it is; in UTF-8 and UTF-32 it
is not joined to another half. -/
def decodeText? (bytes : Bytes) : Option Text :=
  match detectEncoding bytes with
  | (.utf8, rest) => Utf8.decodeSurrogates? rest
  | (.utf16 bigEndian, rest) =>
      (pairs? bigEndian rest).map fun ns => joinUnits (ns.map .code)
  | (.utf32 bigEndian, rest) => (quads? bigEndian rest).bind ofCodePoints?

/-- Reads JSON in octets; octets that are no text are malformed. -/
def parseBytes [Stack] (bytes : Bytes) : Except ReadError Json :=
  match decodeText? bytes with
  | some t => parse t
  | none => .error .malformed

end Lifeline.Json
