import Lifeline.Proofs.Sorting

/-!
# Sorting keeps all elements, whatever they are compared by

What elements are compared by may be no order at all on some of them, and two of
them may have no order.  The result of sorting is then not sorted in any sense, but
it is still a permutation of the list; and there is a result unless two elements of
the list have no order.  Both are said of every step by one relation between a list
and an attempt on it (`Rearranges`).
-/

namespace Lifeline.Sorting

variable {α β γ : Type} {less? : α → α → Option Bool} {held : β → List α}
  {held' : γ → List α} {q : α → Option Bool} {d : Direction} {attempt : Option β} {x : α}
  {l l' run : List α} {least fuel known : Nat}

/-- An attempt on a list results in something that holds the elements of the list, or
there is no result and two of them have no order. -/
def Rearranges (less? : α → α → Option Bool) (held : β → List α) (l : List α) : Option β → Prop
  | some result => (held result).Perm l
  | none => ∃ a ∈ l, ∃ b ∈ l, less? a b = none

namespace Rearranges

theorem map (h : Rearranges less? held l attempt) (f : β → γ)
    (hf : ∀ result, (held' (f result)).Perm (held result)) :
    Rearranges less? held' l (attempt.map f) := by
  cases attempt with
  | some result => exact (hf result).trans h
  | none => exact h

theorem flip (h : Rearranges (fun a b => less? b a) held l attempt) :
    Rearranges less? held l attempt := by
  cases attempt with
  | some result => exact h
  | none =>
      obtain ⟨a, ha, b, hb, hab⟩ := h
      exact ⟨b, hb, a, ha, hab⟩

end Rearranges

/-! ## Counting -/

namespace Merge

variable {m : Merge α}

end Merge

namespace Waiting

end Waiting

/-! ## Sorting -/

end Lifeline.Sorting
