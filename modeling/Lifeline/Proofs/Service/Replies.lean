import Lifeline.Proofs.Json.Characters
import Lifeline.Proofs.Json.Sendable
import Lifeline.Service.Handler

/-!
# Replies that can be sent

The body of a reply is sent as UTF-8, so a reply fails when a surrogate stands in one of its
texts.  A refusal never does: its message quotes what it shows of the request, and what is quoted
is made of characters.
-/

namespace Lifeline

/-- The wording of a record error is made of characters. -/
theorem RecordError.isScalar_message (e : RecordError) : e.message.isScalar = true := by
  cases e with
  | unknownMode mode =>
      rw [RecordError.message, Text.isScalar_append, Text.isScalar_toText, Json.isScalar_shown]
      rfl
  | _ => exact Text.isScalar_toText _

theorem UnrecognizedLine.isScalar_message (e : UnrecognizedLine) :
    e.message.isScalar = true := by
  simp only [UnrecognizedLine.message, Text.isScalar_append, Text.isScalar_toText,
    Text.isScalar_ofNat, Json.isScalar_quoted, Bool.and_self]

namespace Service.Reply

@[simp] theorem status_failure : Reply.failure.status = 500 := rfl

section

variable [Json.Stack] {r : Reply}

/-- A reply refuses a request, in characters. -/
def IsRefusal (r : Reply) : Prop :=
  ∃ message : Text, message.isScalar = true ∧ r = .badRequest message

theorem isRefusal_badRequest {message : Text} (hmessage : message.isScalar = true) :
    (Reply.badRequest message).IsRefusal :=
  ⟨message, hmessage, rfl⟩

/-- A refusal can be sent. -/
theorem IsRefusal.status_eq (h : r.IsRefusal) : r.status = 400 := by
  obtain ⟨message, hmessage, rfl⟩ := h
  have hsendable :
      (Json.obj [("detail".toText, .str message)]).isSendable Json.Stack.room = true := by
    rw [Json.Stack.room, Json.isSendable_obj, List.all_cons, List.all_nil, Text.isScalar_toText,
      Json.isSendable_str, hmessage]
    rfl
  rw [badRequest, detail, ofJson, ofFile, if_pos hsendable]
  rfl

end

end Service.Reply
end Lifeline
