import Lifeline.Json.Order
import Lifeline.Json.Reader
import Lifeline.Record
import Lifeline.Sorting

/-!
# The store of saved diagrams

A store keeps the records of saved diagrams under identifiers made from their
names, and writes all of them to a state file with every change.  Each change
raises the version of the store by one.  What a state file holds under a key is
kept as it is, also when it is no record.
-/

namespace Lifeline

/-- The nonempty runs of ASCII letters and digits in a text. -/
def alphanumericRuns (t : Text) : List Text :=
  (Text.splitWhere (fun c => !c.isAlphanum) t).filter fun run => !run.isEmpty

/-- The identifier of a saved diagram: the runs of ASCII letters and digits of
its name, in small letters, joined by hyphens. -/
def diagramId (name : Text) : Text :=
  match alphanumericRuns name with
  | [] => "diagram".toText
  | runs => (Text.join ['-'] runs).map CodePoint.toLower

/-- A store: its diagrams, its version, and the octets of its state file, if
there is one. -/
structure Store where
  diagrams : TextMap Json
  version : Nat
  file : Option Bytes

/-- Why a state file cannot be read. -/
inductive OpenError where
  | notUtf8
  | json (e : Json.ReadError)
deriving DecidableEq

/-- The exception that tells why a state file cannot be read. -/
def OpenError.exception : OpenError → ExceptionClass
  | .notUtf8 => .unicodeDecodeError
  | .json e => e.exception

/-- What is found under an identifier. -/
inductive Lookup where
  | missing
  | unreadable (e : RecordError)
  | found (r : Record)

namespace Store

/-- What the opening of a store takes for a file without diagrams. -/
def caughtByOpening : List ExceptionClass :=
  [.jsonDecodeError, .osError]

/-- The diagrams of a state file that cannot be read, when this is caught. -/
def unreadable (e : OpenError) : Except OpenError (TextMap Json) :=
  if e.exception.isCaughtBy caughtByOpening then .ok TextMap.empty else .error e

/-- The diagrams in the text of a state file.  JSON that is no object counts as
no diagrams. -/
def diagramsOfText [Json.Stack] (t : Text) : Except OpenError (TextMap Json) :=
  match Json.parse t with
  | .ok (.obj fields) => .ok (TextMap.ofList fields)
  | .ok _ => .ok TextMap.empty
  | .error e => unreadable (.json e)

/-- The diagrams in a state file. -/
def diagramsOfFile [Json.Stack] : Option Bytes → Except OpenError (TextMap Json)
  | none => .ok TextMap.empty
  | some bytes =>
      match Utf8.decode? bytes with
      | none => unreadable .notUtf8
      | some t => diagramsOfText t

/-- Opens a store on a state file. -/
def openFile [Json.Stack] (file : Option Bytes) : Except OpenError Store :=
  match diagramsOfFile file with
  | .ok diagrams => .ok ⟨diagrams, 0, file⟩
  | .error e => .error e

/-- The text of the state file for some diagrams. -/
def fileText (diagrams : TextMap Json) : Text :=
  Json.write .page (.obj diagrams.entries)

/-- Writes the state file. -/
def save (s : Store) : Store :=
  { s with file := some (Utf8.encode (fileText s.diagrams)) }

/-- The store after a change of its diagrams: written, with the next
version. -/
def change (s : Store) (diagrams : TextMap Json) : Store :=
  { save { s with diagrams := diagrams } with version := s.version + 1 }

/-! ## Reading -/

/-- The record under an identifier.  A record without a name is named after its
diagram. -/
def get (today id : Text) (s : Store) : Lookup :=
  match s.diagrams.get? id with
  | some (.obj fields) =>
      match Record.ofFields today fields with
      | .ok r => .found r
      | .error e => .unreadable e
  | _ => .missing

/-- A line for the log about an identifier whose record cannot be read. -/
def Lookup.log? (id : Text) : Lookup → Option Text
  | .unreadable e =>
      some ("[store] Skipping unreadable diagram ".toText ++ Text.quoted id ++ ": ".toText ++
        e.message)
  | _ => none

/-- What a list of diagrams shows of one, and what the list is sorted by. -/
structure Summary where
  key : Json
  shown : Json

/-- The summary of a diagram; `none` for what is no object. -/
def Summary.of? (entry : Text × Json) : Option Summary :=
  match entry.2 with
  | .obj fields =>
      let field (key : String) : Json := Json.fieldOrNull fields key.toText
      let updatedAt := field "updatedAt"
      some
        { key := if updatedAt.isVoid then .str [] else updatedAt
          shown := .obj
            [("id".toText, .str entry.1), ("name".toText, field "name"),
              ("syntaxMode".toText, field "syntaxMode"),
              ("createdAt".toText, field "createdAt"), ("updatedAt".toText, updatedAt)] }
  | _ => none

/-- The summaries of the diagrams, the last updated first; `none` when the times
of two diagrams have no order. -/
def list? (s : Store) : Option (List Json) :=
  (Sorting.sortDown? (fun a b => Json.before? a.key b.key)
      (s.diagrams.entries.filterMap Summary.of?)).map fun sorted => sorted.map Summary.shown

/-! ## Changing -/

/-- The time of creation that a record keeps from the one in its place: `none`
when that is neither void nor an object. -/
def keptCreation? (s : Store) (id : Text) : Option (Option Json) :=
  match ((s.diagrams.get? id).getD .null).fieldsOrVoid? with
  | none => none
  | some fields => some (Json.givenField? fields "createdAt".toText)

/-- The time of creation of a record that is saved now. -/
def creation (now : Text) (r : Record) (kept : Option Json) : Json :=
  match kept with
  | some v => v
  | none => .str (if r.createdAt.isEmpty then now else r.createdAt)

/-- Saves a record under its name, in place of what was there, and gives the
entry; `none` when what was there is neither void nor an object. -/
def put? (now : Text) (r : Record) (s : Store) : Option (Store × Json) :=
  let id := diagramId r.name
  match keptCreation? s id with
  | none => none
  | some kept =>
      let fields := r.fieldsWith (creation now r kept) (.str now)
      some (s.change (s.diagrams.insert id (.obj fields)),
        .obj (("id".toText, .str id) :: fields))

/-- Removes what is under an identifier, if there is something. -/
def remove (id : Text) (s : Store) : Store × Bool :=
  if (s.diagrams.get? id).isSome then (s.change (s.diagrams.erase id), true) else (s, false)

/-- Removes everything, and says how much that was. -/
def clear (s : Store) : Store × Nat :=
  (s.change TextMap.empty, s.diagrams.size)

end Store
end Lifeline
