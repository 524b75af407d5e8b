import Lifeline.Json.Value

/-!
# Values that can be sent

The items of an array and the fields of an object are sent with one place less than the whole.
-/

namespace Lifeline.Json

variable {room : Nat}

@[simp] theorem isSendable_null : isSendable room .null = true := by
  cases room <;> rfl

@[simp] theorem isSendable_bool (b : Bool) : isSendable room (.bool b) = true := by
  cases room <;> rfl

@[simp] theorem isSendable_int (n : Int) : isSendable room (.int n) = true := by
  cases room <;> rfl

@[simp] theorem isSendable_str (t : Text) : isSendable room (.str t) = t.isScalar := by
  cases room <;> rfl

@[simp] theorem isSendable_arr (items : List Json) :
    isSendable (room + 1) (.arr items) = items.all (isSendable room) := by
  rw [isSendable]
  induction items with
  | nil => cases room <;> rfl
  | cons v items ih => rw [itemsAreSendable, ih, List.all_cons]

@[simp] theorem isSendable_obj (fields : List (Text × Json)) :
    isSendable (room + 1) (.obj fields) =
      fields.all fun f => f.1.isScalar && isSendable room f.2 := by
  rw [isSendable]
  induction fields with
  | nil => cases room <;> rfl
  | cons f fields ih => rw [fieldsAreSendable, ih, List.all_cons]

end Lifeline.Json
