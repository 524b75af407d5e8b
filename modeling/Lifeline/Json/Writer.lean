import Lifeline.Binary64.Shortest
import Lifeline.Json.Value

/-!
# Writing JSON

One writer with a layout: what stands behind a comma and a colon, whether items
go on lines of their own, and whether characters beyond the printable ASCII
range are escaped.
-/

namespace Lifeline.Json

/-- How a value is laid out. -/
structure Layout where
  /-- What separates items on one line. -/
  comma : Text
  /-- What separates a key from its value. -/
  colon : Text
  /-- Every item has a line of its own, indented by two spaces for each level. -/
  indented : Bool
  /-- Every character outside the printable ASCII range is escaped. -/
  ascii : Bool

/-- No white space, and only what must be escaped is escaped. -/
def Layout.dense : Layout := ⟨",".toText, ":".toText, false, false⟩

/-- No white space, in ASCII. -/
def Layout.denseAscii : Layout := ⟨",".toText, ":".toText, false, true⟩

/-- On one line with spaces, in ASCII. -/
def Layout.line : Layout := ⟨", ".toText, ": ".toText, false, true⟩

/-- On several lines, in ASCII. -/
def Layout.page : Layout := ⟨",".toText, ": ".toText, true, true⟩

/-- A number of 16 bits as an escape sequence. -/
def escapeCode (n : Nat) : Text :=
  '\\' :: 'u' :: Text.hex 4 n

/-- A character as escape sequences: one, or a surrogate pair. -/
def escapeChar (c : CodePoint) : Text :=
  let n := c.toNat
  if n < 0x10000 then
    escapeCode n
  else
    escapeCode (0xD800 + (n - 0x10000) / 1024) ++ escapeCode (0xDC00 + (n - 0x10000) % 1024)

/-- A character inside a string. -/
def stringChar (ascii : Bool) (c : CodePoint) : Text :=
  if c = '"' then ['\\', '"']
  else if c = '\\' then ['\\', '\\']
  else if c = '\n' then ['\\', 'n']
  else if c = '\r' then ['\\', 'r']
  else if c = '\t' then ['\\', 't']
  else if c = '\x08' then ['\\', 'b']
  else if c = '\x0c' then ['\\', 'f']
  else if c.toNat < 32 then escapeCode c.toNat
  else if ascii && 126 < c.toNat then escapeChar c
  else [c]

/-- A string with its quotes. -/
def writeString (ascii : Bool) (t : Text) : Text :=
  .char '"' :: (t.flatMap (stringChar ascii) ++ [.char '"'])

/-- A number of double precision. -/
def writeReal : Binary64 → Text
  | .finite negative rank => Binary64.finiteText negative rank.val
  | .infinite false => "Infinity".toText
  | .infinite true => "-Infinity".toText
  | .notANumber => "NaN".toText

/-- The line end and the indentation in front of an item, if the layout has
them. -/
def Layout.newLine (layout : Layout) (depth : Nat) : Text :=
  if layout.indented then '\n' :: List.replicate (2 * depth) ' ' else []

mutual

/-- Writes a value at a depth. -/
def writeAt (layout : Layout) : Nat → Json → Text
  | _, .null => "null".toText
  | _, .bool true => "true".toText
  | _, .bool false => "false".toText
  | _, .int n => Text.ofInt n
  | _, .real x => writeReal x
  | _, .str t => writeString layout.ascii t
  | _, .arr [] => "[]".toText
  | depth, .arr (v :: vs) =>
      .char '[' :: (layout.newLine (depth + 1) ++ writeItems layout (depth + 1) (v :: vs) ++
        layout.newLine depth ++ [.char ']'])
  | _, .obj [] => "\x7b\x7d".toText
  | depth, .obj (f :: fs) =>
      .char '{' :: (layout.newLine (depth + 1) ++ writeFields layout (depth + 1) (f :: fs) ++
        layout.newLine depth ++ [.char '}'])

/-- Writes the items of an array. -/
def writeItems (layout : Layout) : Nat → List Json → Text
  | _, [] => []
  | depth, [v] => writeAt layout depth v
  | depth, v :: next :: rest =>
      writeAt layout depth v ++ layout.comma ++ layout.newLine depth ++
        writeItems layout depth (next :: rest)

/-- Writes the fields of an object. -/
def writeFields (layout : Layout) : Nat → List (Text × Json) → Text
  | _, [] => []
  | depth, [(k, v)] => writeString layout.ascii k ++ layout.colon ++ writeAt layout depth v
  | depth, (k, v) :: next :: rest =>
      writeString layout.ascii k ++ layout.colon ++ writeAt layout depth v ++ layout.comma ++
        layout.newLine depth ++ writeFields layout depth (next :: rest)

end

/-- A value as text. -/
def write (layout : Layout) (v : Json) : Text :=
  writeAt layout 0 v

end Lifeline.Json
