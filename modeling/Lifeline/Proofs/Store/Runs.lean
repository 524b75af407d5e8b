import Lifeline.Proofs.TextMap
import Lifeline.Store.Operations

/-!
# Runs of a store

A store that was opened has the diagrams of its file.  A call changes nothing, or it writes the
state file, or it changes the diagrams, and then it puts in one diagram at most
(`forall_mem_call`).  What every call preserves holds after every run.
-/

namespace Lifeline.Store

variable {s : Store} {p : Store → Prop}

theorem exists_of_openFile [Json.Stack] {file : Option Bytes} (h : openFile file = .ok s) :
    ∃ diagrams, diagramsOfFile file = .ok diagrams ∧ s = ⟨diagrams, 0, file⟩ := by
  unfold openFile at h
  split at h
  · rename_i diagrams hdiagrams
    exact ⟨diagrams, hdiagrams, (Except.ok.inj h).symm⟩
  · contradiction

/-- What a call did: nothing, writing the state file, or a change of the
diagrams. -/
theorem call_cases (s : Store) (c : Call) :
    s.call c = s ∨ s.call c = save s ∨
      (∃ now r kept, c = .put now r ∧ keptCreation? s (diagramId r.name) = some kept ∧
        s.call c = s.change (s.diagrams.insert (diagramId r.name)
          (.obj (r.fieldsWith (creation now r kept) (.str now))))) ∨
      (∃ id, c = .remove id ∧ s.call c = s.change (s.diagrams.erase id)) ∨
      (c = .clear ∧ s.call c = s.change TextMap.empty) := by
  cases c with
  | put now r =>
      simp only [call, put?]
      cases hkept : keptCreation? s (diagramId r.name) with
      | none => exact Or.inl rfl
      | some kept => exact Or.inr (Or.inr (Or.inl ⟨now, r, kept, rfl, hkept, rfl⟩))
  | remove id =>
      simp only [call, remove]
      split
      · exact Or.inr (Or.inr (Or.inr (Or.inl ⟨id, rfl, rfl⟩)))
      · exact Or.inl rfl
  | clear => exact Or.inr (Or.inr (Or.inr (Or.inr ⟨rfl, rfl⟩)))
  | save => exact Or.inr (Or.inl rfl)

/-- What is true of every diagram is true of every diagram after a call, if it is true of the one
that the call puts in. -/
theorem forall_mem_call {q : Text × Json → Prop} (h : ∀ entry ∈ s.diagrams.entries, q entry)
    (c : Call) (hput : ∀ now r kept, c = .put now r →
      keptCreation? s (diagramId r.name) = some kept →
        q (diagramId r.name, .obj (r.fieldsWith (creation now r kept) (.str now)))) :
    ∀ entry ∈ (s.call c).diagrams.entries, q entry := by
  rcases call_cases s c with hsame | hsave | ⟨now, r, kept, hc, hkept, hcall⟩ | ⟨id, -, hcall⟩ |
    ⟨-, hcall⟩
  · rwa [hsame]
  · rwa [hsave]
  · rw [hcall]
    intro entry hentry
    rcases mem_insertEntry hentry with rfl | hentry
    · exact hput now r kept hc hkept
    · exact h entry hentry
  · rw [hcall]
    exact fun entry hentry => h entry (List.mem_filter.mp hentry).1
  · rw [hcall]
    exact fun entry hentry => absurd hentry List.not_mem_nil

/-- A call that leaves the version leaves the diagrams. -/
theorem version_call (s : Store) (c : Call) :
    ((s.call c).version = s.version ∧ (s.call c).diagrams = s.diagrams) ∨
      (s.call c).version = s.version + 1 := by
  obtain h | h | ⟨_, _, _, -, -, h⟩ | ⟨_, -, h⟩ | ⟨-, h⟩ := call_cases s c <;> rw [h]
  · exact Or.inl ⟨rfl, rfl⟩
  · exact Or.inl ⟨rfl, rfl⟩
  · exact Or.inr rfl
  · exact Or.inr rfl
  · exact Or.inr rfl

/-- What every call preserves holds after every run. -/
theorem run_induction (hcall : ∀ s c, p s → p (s.call c)) (hs : p s) (calls : List Call) :
    p (s.run calls) := by
  induction calls generalizing s with
  | nil => exact hs
  | cons c calls ih => exact ih (hcall s c hs)

end Lifeline.Store
