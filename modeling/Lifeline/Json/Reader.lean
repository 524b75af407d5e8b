import Lifeline.Exception
import Lifeline.Json.Value
import Lifeline.Text.Quoted
import Lifeline.Text.Search
import Lifeline.Text.Utf8

/-!
# Reading JSON

The grammar is that of JSON with three more numbers, `NaN`, `Infinity` and
`-Infinity`.  Of the fields of an object with one key the last counts, at the
place of the first.  An integer of more than 4300 digits is refused for its
length and not as malformed, and so are arrays and objects that nest too deep.
-/

namespace Lifeline.Json

/-- Why a text is not read as JSON. -/
inductive ReadError where
  | malformed
  | longInteger
  /-- More arrays and objects are open than there is room for. -/
  | tooDeep
deriving DecidableEq

/-- The exception that tells of an error. -/
def ReadError.exception : ReadError → ExceptionClass
  | .malformed => .jsonDecodeError
  | .longInteger => .valueError
  | .tooDeep => .recursionError

/-- The stack that JSON is read on.  Every array and every object that is open
takes a call, and the calls that stand there already bound how many there may be.
There is always room for the four that a state file of records has open, and for
some more that are spare. -/
class Stack where
  spare : Nat

/-- How many arrays and objects may be open. -/
def Stack.room [Stack] : Nat :=
  Stack.spare + 4

/-- The stack of a program that may nest 1000 calls and has nested ten. -/
@[reducible] def Stack.usual : Stack :=
  ⟨986⟩

/-- The white space of JSON. -/
def isSpace (c : CodePoint) : Bool :=
  c == ' ' || c == '\t' || c == '\n' || c == '\r'

/-- Drops white space in front. -/
def skipSpace (t : Text) : Text :=
  t.dropWhile isSpace

/-! ## Strings -/

/-- The number that four hexadecimal digits write. -/
def hexNumber? (a b c d : CodePoint) : Option Nat := do
  let a ← Text.hexDigit? a
  let b ← Text.hexDigit? b
  let c ← Text.hexDigit? c
  let d ← Text.hexDigit? d
  some (((a * 16 + b) * 16 + c) * 16 + d)

/-- What a string is written with: a character, or a number of 16 bits. -/
inductive StringUnit where
  | char (c : CodePoint)
  | code (n : Nat)

/-- The character that a letter behind a backslash stands for. -/
def escape? (c : CodePoint) : Option CodePoint :=
  if c = '"' ∨ c = '\\' ∨ c = '/' then some c
  else if c = 'b' then some (.char '\x08')
  else if c = 'f' then some (.char '\x0c')
  else if c = 'n' then some (.char '\n')
  else if c = 'r' then some (.char '\r')
  else if c = 't' then some (.char '\t')
  else none

/-- Reads a string behind its opening quote; gives the units and the text
behind the closing quote. -/
def stringUnits? : Text → Option (List StringUnit × Text)
  | [] => none
  | '"' :: rest => some ([], rest)
  | '\\' :: 'u' :: a :: b :: c :: d :: rest =>
      match hexNumber? a b c d with
      | none => none
      | some n => (stringUnits? rest).map fun (us, behind) => (.code n :: us, behind)
  | '\\' :: e :: rest =>
      match escape? e with
      | none => none
      | some c => (stringUnits? rest).map fun (us, behind) => (.char c :: us, behind)
  | c :: rest =>
      if c.toNat < 32 ∨ c = '\\' then
        none
      else
        (stringUnits? rest).map fun (us, behind) => (.char c :: us, behind)

/-- The text of string units: two numbers that form a surrogate pair are one
character, and half a pair stays as it is. -/
def joinUnits : List StringUnit → Text
  | [] => []
  | .char c :: rest => c :: joinUnits rest
  | .code n :: rest =>
      match rest with
      | .code m :: rest' =>
          if isHighSurrogate n && isLowSurrogate m then
            .ofNat (joinSurrogates n m) :: joinUnits rest'
          else
            .ofNat n :: joinUnits (.code m :: rest')
      | rest => .ofNat n :: joinUnits rest

/-- Reads a string behind its opening quote. -/
def string? (t : Text) : Option (Text × Text) :=
  (stringUnits? t).map fun (us, behind) => (joinUnits us, behind)

/-! ## Numbers -/

/-- A decimal digit. -/
def isDigit (c : CodePoint) : Bool :=
  '0' ≤ c && c ≤ '9'

/-- The number that decimal digits write. -/
def digitsValue (digits : Text) : Nat :=
  digits.foldl (fun n c => n * 10 + (c.toNat - 48)) 0

/-- The digits before the point: a zero alone, or digits that begin with
another one. -/
def wholeDigits? (t : Text) : Option (Text × Text) :=
  match t with
  | [] => none
  | c :: rest =>
      if c = '0' then some ([c], rest)
      else if isDigit c then some (c :: rest.takeWhile isDigit, rest.dropWhile isDigit)
      else none

/-- A point with at least one digit behind it; no digits when there is none. -/
def fraction (t : Text) : Text × Text :=
  match t with
  | '.' :: rest =>
      let digits := rest.takeWhile isDigit
      if digits.isEmpty then ([], t) else (digits, rest.dropWhile isDigit)
  | _ => ([], t)

/-- The sign in front of the digits of an exponent. -/
def exponentSign (t : Text) : Bool × Text :=
  match t with
  | '-' :: rest => (true, rest)
  | '+' :: rest => (false, rest)
  | _ => (false, t)

/-- An exponent with at least one digit; `none` when there is none. -/
def exponent? (t : Text) : Option (Int × Text) :=
  match t with
  | [] => none
  | c :: rest =>
      if c = 'e' ∨ c = 'E' then
        let (negative, behind) := exponentSign rest
        let digits := behind.takeWhile isDigit
        if digits.isEmpty then
          none
        else
          let n : Int := digitsValue digits
          some (if negative then -n else n, behind.dropWhile isDigit)
      else
        none

/-- Reads a number behind its sign. -/
def number (negative : Bool) (t : Text) : Except ReadError (Json × Text) :=
  match wholeDigits? t with
  | none => .error .malformed
  | some (whole, rest) =>
      let (digits, rest) := fraction rest
      match exponent? rest with
      | some (e, rest) =>
          .ok (.real (.ofDecimal negative
            ⟨digitsValue (whole ++ digits), e - digits.length⟩), rest)
      | none =>
          if !digits.isEmpty then
            .ok (.real (.ofDecimal negative
              ⟨digitsValue (whole ++ digits), -digits.length⟩), rest)
          else if maxIntegerDigits < whole.length then
            .error .longInteger
          else
            let n : Int := digitsValue whole
            .ok (.int (if negative then -n else n), rest)

/-! ## Values -/

/-- The values that are written as a word. -/
def words : List (Text × Json) :=
  [("null".toText, .null), ("true".toText, .bool true), ("false".toText, .bool false),
    ("NaN".toText, .real .notANumber), ("Infinity".toText, .real (.infinite false)),
    ("-Infinity".toText, .real (.infinite true))]

/-- Reads a value that is neither a string nor an array nor an object. -/
def scalarValue (t : Text) : Except ReadError (Json × Text) :=
  match words.findSome? fun (word, v) => (Text.after? word t).map fun rest => (v, rest) with
  | some answer => .ok answer
  | none =>
      match t with
      | '-' :: rest => number true rest
      | _ => number false t

mutual

/-- Reads a value that begins here, with room for so many arrays and objects; the
other number bounds the length of the reading. -/
def value : Nat → Nat → Text → Except ReadError (Json × Text)
  | 0, _, _ => .error .malformed
  | _ + 1, _, [] => .error .malformed
  | fuel + 1, room, c :: rest =>
      if c = '"' then
        match string? rest with
        | some (s, behind) => .ok (.str s, behind)
        | none => .error .malformed
      else if c = '[' then
        match room with
        | 0 => .error .tooDeep
        | room + 1 =>
            match skipSpace rest with
            | ']' :: behind => .ok (.arr [], behind)
            | inside =>
                match items fuel room inside with
                | .ok (vs, behind) => .ok (.arr vs, behind)
                | .error e => .error e
      else if c = '{' then
        match room with
        | 0 => .error .tooDeep
        | room + 1 =>
            match skipSpace rest with
            | '}' :: behind => .ok (.obj [], behind)
            | inside =>
                match fields fuel room inside with
                | .ok (fs, behind) => .ok (.obj (lastEntries fs), behind)
                | .error e => .error e
      else
        scalarValue (c :: rest)

/-- Reads the items of an array up to its closing bracket. -/
def items : Nat → Nat → Text → Except ReadError (List Json × Text)
  | 0, _, _ => .error .malformed
  | fuel + 1, room, t =>
      match value fuel room t with
      | .error e => .error e
      | .ok (v, rest) =>
          match skipSpace rest with
          | ']' :: behind => .ok ([v], behind)
          | ',' :: more =>
              match items fuel room (skipSpace more) with
              | .ok (vs, behind) => .ok (v :: vs, behind)
              | .error e => .error e
          | _ => .error .malformed

/-- Reads the fields of an object up to its closing brace. -/
def fields : Nat → Nat → Text → Except ReadError (List (Text × Json) × Text)
  | 0, _, _ => .error .malformed
  | fuel + 1, room, t =>
      match t with
      | '"' :: rest =>
          match string? rest with
          | none => .error .malformed
          | some (k, rest) =>
              match skipSpace rest with
              | ':' :: rest =>
                  match value fuel room (skipSpace rest) with
                  | .error e => .error e
                  | .ok (v, rest) =>
                      match skipSpace rest with
                      | '}' :: behind => .ok ([(k, v)], behind)
                      | ',' :: more =>
                          match fields fuel room (skipSpace more) with
                          | .ok (fs, behind) => .ok ((k, v) :: fs, behind)
                          | .error e => .error e
                      | _ => .error .malformed
              | _ => .error .malformed
      | _ => .error .malformed

end

/-- Reads a text that is one JSON value with white space around it. -/
def parse [Stack] (t : Text) : Except ReadError Json :=
  match value (2 * t.length + 2) Stack.room (skipSpace t) with
  | .error e => .error e
  | .ok (v, rest) => if (skipSpace rest).isEmpty then .ok v else .error .malformed

end Lifeline.Json
