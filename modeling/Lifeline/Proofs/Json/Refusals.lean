import Lifeline.Proofs.Json.Suffixes

/-!
# What an error of the reader tells of the text

An error other than that of malformed text is met at a scalar value, or at a bracket for
which no room is left.  What is known of the rest of the text there is handed on to the
whole text (`Traced.of_parse`): in front of the rest stand items and fields that were read,
and brackets, each of which takes one place of the room.
-/

namespace Lifeline.Json

variable {fuel room : Nat} {t : Text} {e : ReadError} {P : Nat → Text → Prop}

/-- A property of the room and of the text that holds wherever an error is met, and that
stays when more text stands in front. -/
structure Traced (e : ReadError) (P : Nat → Text → Prop) : Prop where
  tooDeep : e = .tooDeep → ∀ {c : CodePoint} {t : Text}, c = '[' ∨ c = '{' → P 0 (c :: t)
  scalar : ∀ {room : Nat} {t : Text}, scalarValue t = .error e → P room t
  inside : ∀ {room : Nat} {c : CodePoint} {t : Text}, c = '[' ∨ c = '{' → P room t →
    P (room + 1) (c :: t)
  suffix : ∀ {room : Nat} {t u : Text}, P room u → u <:+ t → P room t

namespace Traced

theorem of_valueRefused (h : Traced e P)
    (hitems : ∀ {room t}, items fuel room t = .error e → P room t)
    (hfields : ∀ {room t}, fields fuel room t = .error e → P room t)
    (hrefused : ValueRefused fuel room t e) : P room t := by
  cases hrefused with
  | tooDeep hc => exact h.tooDeep rfl hc
  | items hopen hread => exact h.inside (Or.inl rfl) (h.suffix (hitems hread) (skipSpace_suffix _))
  | fields hopen hread =>
      exact h.inside (Or.inr rfl) (h.suffix (hfields hread) (skipSpace_suffix _))
  | scalar hquote hbracket hbrace hscalar => exact h.scalar hscalar

theorem of_itemsRefused (h : Traced e P)
    (hvalue : ∀ {room t}, value fuel room t = .error e → P room t)
    (hitems : ∀ {room t}, items fuel room t = .error e → P room t)
    (hrefused : ItemsRefused fuel room t e) : P room t := by
  cases hrefused with
  | value hread => exact hvalue hread
  | items hread hcomma hlater =>
      have hmore := (skipSpace_suffix _).trans (suffix_of_skipSpace hcomma)
      exact h.suffix (hitems hlater) (hmore.trans ((suffix_of_read fuel).value hread))

theorem of_fieldsRefused (h : Traced e P)
    (hvalue : ∀ {room t}, value fuel room t = .error e → P room t)
    (hfields : ∀ {room t}, fields fuel room t = .error e → P room t)
    (hrefused : FieldsRefused fuel room t e) : P room t := by
  cases hrefused with
  | value hkey hcolon hread =>
      have hbehind := (string?_suffix hkey).trans (List.suffix_cons (.char '"') _)
      have hinside := (skipSpace_suffix _).trans (suffix_of_skipSpace hcolon)
      exact h.suffix (hvalue hread) (hinside.trans hbehind)
  | fields hfield hcomma hlater =>
      have hmore := (skipSpace_suffix _).trans (suffix_of_skipSpace hcomma)
      have hbehind := suffix_of_fieldStep (suffix_of_read fuel).value hfield
      exact h.suffix (hfields hlater) (hmore.trans hbehind)

/-- By induction on the fuel: what an error tells of a part, it tells of the whole. -/
theorem of_read (h : Traced e P) (he : e ≠ .malformed) (fuel : Nat) :
    (∀ {room t}, value fuel room t = .error e → P room t) ∧
      (∀ {room t}, items fuel room t = .error e → P room t) ∧
      ∀ {room t}, fields fuel room t = .error e → P room t := by
  induction fuel with
  | zero =>
      -- Without fuel every text counts as malformed.
      refine ⟨?_, ?_, ?_⟩
      · intro room t hread
        rw [value] at hread
        exact absurd (Except.error.inj hread).symm he
      · intro room t hread
        rw [items] at hread
        exact absurd (Except.error.inj hread).symm he
      · intro room t hread
        rw [fields] at hread
        exact absurd (Except.error.inj hread).symm he
  | succ fuel ih =>
      obtain ⟨hvalue, hitems, hfields⟩ := ih
      refine ⟨?_, ?_, ?_⟩
      · intro room t hread
        exact h.of_valueRefused hitems hfields ((value_succ_eq_error_iff he).mp hread)
      · intro room t hread
        exact h.of_itemsRefused hvalue hitems ((items_succ_eq_error_iff he).mp hread)
      · intro room t hread
        exact h.of_fieldsRefused hvalue hfields ((fields_succ_eq_error_iff he).mp hread)

theorem of_parse [Stack] (h : Traced e P) (he : e ≠ .malformed) (hparse : parse t = .error e) :
    P Stack.room t := by
  unfold parse at hparse
  split at hparse
  · rename_i fault hread
    obtain rfl := Except.error.inj hparse
    exact h.suffix ((h.of_read he _).1 hread) (skipSpace_suffix t)
  · split at hparse
    · contradiction
    · exact absurd (Except.error.inj hparse).symm he

end Traced
end Lifeline.Json
