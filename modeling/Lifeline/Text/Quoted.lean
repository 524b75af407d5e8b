import Lifeline.Text.Printable

/-!
# Texts in messages

A message shows a text between single quotes, or between double quotes when
the text holds a single quote and no double quote.  The quote in use and the
backslash are escaped; tab, line feed and carriage return have letters of their
own; any other character that is not printable is written by its number.
-/

namespace Lifeline.Text

/-- The hexadecimal digits of a number, padded with zeros to a width. -/
def hex (width n : Nat) : Text :=
  let digits := (Nat.toDigits 16 n).map CodePoint.char
  List.replicate (width - digits.length) (.char '0') ++ digits

/-- The value of a hexadecimal digit. -/
def hexDigit? (c : CodePoint) : Option Nat :=
  if '0' ≤ c ∧ c ≤ '9' then some (c.toNat - 48)
  else if 'a' ≤ c ∧ c ≤ 'f' then some (c.toNat - 87)
  else if 'A' ≤ c ∧ c ≤ 'F' then some (c.toNat - 55)
  else none

/-- One character between `quote` characters. -/
def quoteChar (quote c : CodePoint) : Text :=
  if c == quote || c == '\\' then ['\\', c]
  else if c == '\t' then "\\t".toText
  else if c == '\n' then "\\n".toText
  else if c == '\r' then "\\r".toText
  else if isPrintable c then [c]
  else if c.toNat < 0x100 then "\\x".toText ++ hex 2 c.toNat
  else if c.toNat < 0x10000 then "\\u".toText ++ hex 4 c.toNat
  else "\\U".toText ++ hex 8 c.toNat

/-- The quote that a text is shown in. -/
def quoteFor (t : Text) : CodePoint :=
  if .char '\'' ∈ t ∧ .char '"' ∉ t then '"' else .char '\''

/-- A text as a message shows it. -/
def quoted (t : Text) : Text :=
  let quote := quoteFor t
  quote :: (t.flatMap (quoteChar quote) ++ [quote])

/-- The decimal digits of a natural number. -/
def ofNat (n : Nat) : Text :=
  (Nat.toDigits 10 n).map .char

/-- The decimal digits of an integer, with a minus sign when it is negative. -/
def ofInt : Int → Text
  | .ofNat n => ofNat n
  | .negSucc n => '-' :: ofNat (n + 1)

end Lifeline.Text
