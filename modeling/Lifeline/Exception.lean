/-!
# Exceptions

What goes wrong raises an exception, and an exception belongs to a class.  A handler names
the classes that it takes, and it takes what is below them too.  What no handler takes gets
out to the caller.
-/

namespace Lifeline

/-- The classes of the exceptions that can be raised. -/
inductive ExceptionClass where
  | attributeError
  | indexError
  | osError
  | recursionError
  | typeError
  | valueError
  /-- A token is corrupted. -/
  | decodeError
  /-- A text is no JSON. -/
  | jsonDecodeError
  /-- Octets are no text. -/
  | unicodeDecodeError
deriving DecidableEq

namespace ExceptionClass

/-- The class right above another one. -/
def above? : ExceptionClass → Option ExceptionClass
  | .decodeError => some .valueError
  | .jsonDecodeError => some .valueError
  | .unicodeDecodeError => some .valueError
  | _ => none

/-- A handler for some classes takes an exception of this class. -/
def isCaughtBy (handler : List ExceptionClass) (c : ExceptionClass) : Bool :=
  handler.contains c || c.above?.any handler.contains

end ExceptionClass
end Lifeline
