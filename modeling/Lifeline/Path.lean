import Lifeline.Text.Letter
import Lifeline.Text.Lines

/-!
# Paths

A path leads from a root, or from the working directory, through names.  A name
of two points leads back to the directory before.  Empty names, names of one
point and a slash at the end say nothing, and are not kept.
-/

namespace Lifeline

/-- A path: the slashes in front of it, and its names. -/
structure Path where
  root : Text
  names : List Text
deriving DecidableEq

namespace Path

/-- The name that leads back. -/
def back : Text := "..".toText

/-- The slashes in front of a path.  Exactly two of them are kept; any other
number is one. -/
def rootOf : Text → Text
  | '/' :: '/' :: '/' :: _ => ['/']
  | '/' :: '/' :: _ => ['/', '/']
  | '/' :: _ => ['/']
  | _ => []

/-- Reads a path. -/
def ofText (t : Text) : Path :=
  ⟨rootOf t, (Text.splitWhere (· == .char '/') t).filter fun name =>
    !(name.isEmpty || name == [.char '.'])⟩

/-- Writes a path; the working directory is one point. -/
def toText (p : Path) : Text :=
  if p.root.isEmpty && p.names.isEmpty then ['.'] else p.root ++ Text.join ['/'] p.names

/-- The path begins at a root. -/
def isAbsolute (p : Path) : Bool :=
  !p.root.isEmpty

/-- No file can have the path: it holds the null character. -/
def isImpossible (p : Path) : Bool :=
  p.names.any fun name => decide (.char '\x00' ∈ name)

/-- The last name of a path; empty when there is none. -/
def name (p : Path) : Text :=
  (p.names.getLast?).getD []

/-- The path without its last name. -/
def directory (p : Path) : Path :=
  { p with names := p.names.dropLast }

/-- The ending of the last name, from its last point on, in small letters.  A
point at the beginning or at the end makes no ending. -/
def ending (p : Path) : Text :=
  let behind := (p.name.reverse.takeWhile (· ≠ .char '.')).reverse
  if behind.isEmpty ∨ p.name.length ≤ behind.length + 1 then []
  else Text.lower (.char '.' :: behind)

end Path
end Lifeline
