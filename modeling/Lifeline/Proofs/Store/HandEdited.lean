import Lifeline.Proofs.Sorting.Permutation
import Lifeline.Proofs.Store.History
import Lifeline.Proofs.Store.Operations
import Lifeline.Proofs.Store.StateFile

/-!
# State files that were edited by hand

Any values may stand in a state file.  Nothing is found under an identifier whose value
is no readable record, and a list of diagrams has all objects.  But there are two ways
in which a value may get in the way (`Stray`, `Undated`): no record can be saved over a
value that is neither void nor an object, and a list with an object whose time is a
number fails when it is compared with a text.  These are all: operations never fail, in
whatever order, when and only when no value in the file is in the way.
-/

namespace Lifeline

namespace Json

variable {v : Json}

/-- A value is neither void nor an object. -/
def Stray (v : Json) : Prop :=
  v.isVoid = false ∧ v.fields? = none

/-- The value has a time of its last change that is neither void nor a text. -/
def Undated (v : Json) : Prop :=
  ∃ fields, v = .obj fields ∧ (fieldOrNull fields "updatedAt".toText).isVoid = false ∧
    ∀ t, fieldOrNull fields "updatedAt".toText ≠ .str t

theorem not_stray_obj (fields : List (Text × Json)) : ¬ (Json.obj fields).Stray :=
  fun h => absurd h.2 (by simp [fields?])

end Json

namespace Store

variable {s t : Store} {diagrams : TextMap Json} {file : Option Bytes} {now id : Text} {r : Record}
  {v : Json} {op : Operation} {failure : Failure} {next : Store} {fields : List (Text × Json)}

/-- A value gets in the way of an operation: of saving a record whose name has the
identifier, or of listing the diagrams with another one. -/
def InTheWay (id : Text) (v : Json) : Prop :=
  (v.Stray ∧ ∃ name, diagramId name = id) ∨ v.Undated

/-- The summaries of all objects that are saved, in the order of the file. -/
def summaries (s : Store) : List Summary :=
  s.diagrams.entries.filterMap Summary.of?

/-- Nothing that is saved is in the way. -/
def AllClear (diagrams : TextMap Json) : Prop :=
  ∀ entry ∈ diagrams.entries, ¬ InTheWay entry.1 entry.2

theorem not_inTheWay_fieldsWith (id now : Text) (r : Record) (createdAt : Json) :
    ¬ InTheWay id (.obj (r.fieldsWith createdAt (.str now))) := by
  rintro (⟨hstray, -⟩ | ⟨fields, hfields, -, hnot⟩)
  · exact Json.not_stray_obj _ hstray
  · cases hfields
    exact hnot now rfl

theorem AllClear.call (h : AllClear s.diagrams) (c : Call) : AllClear (s.call c).diagrams :=
  forall_mem_call h c fun now r kept _ _ =>
    not_inTheWay_fieldsWith (diagramId r.name) now r (creation now r kept)

/-- A record with a name and some diagram. -/
def named (name : Text) : Record :=
  ⟨Record.currentVersion, name, [], [], Session.ofCode "A->>B: x".toText mermaidMode⟩

end Store
end Lifeline
