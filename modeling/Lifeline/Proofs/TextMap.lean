import Lifeline.TextMap

/-!
# Entries with distinct keys

A list of entries without repeated keys is the list of entries of a map, so
building the map changes nothing.
-/

namespace Lifeline

variable {α β : Type} {key : Text} {value : α} {entries done : List (Text × α)}

theorem insertEntry_of_notMem (hkey : key ∉ done.map Prod.fst) :
    insertEntry key value done = done ++ [(key, value)] := by
  induction done with
  | nil => rfl
  | cons entry rest ih =>
      obtain ⟨k, v⟩ := entry
      simp only [List.map_cons, List.mem_cons, not_or] at hkey
      obtain ⟨hk, hrest⟩ := hkey
      rw [insertEntry, if_neg (Ne.symm hk), ih hrest]
      rfl

theorem foldl_insertEntry_of_nodup (hnodup : ((done ++ entries).map Prod.fst).Nodup) :
    entries.foldl (fun d e => insertEntry e.1 e.2 d) done = done ++ entries := by
  induction entries generalizing done with
  | nil => simp
  | cons entry rest ih =>
      -- The key is not among those that are already done, so its entry goes to the end.
      have hkey : entry.1 ∉ done.map Prod.fst := by
        rw [List.map_append, List.nodup_append] at hnodup
        intro hmem
        exact hnodup.2.2 entry.1 hmem entry.1 (by simp) rfl
      rw [List.foldl_cons, insertEntry_of_notMem hkey, ih (by simpa using hnodup)]
      simp

/-- Entries with distinct keys stay as they are. -/
theorem lastEntries_of_nodup (hnodup : (entries.map Prod.fst).Nodup) :
    lastEntries entries = entries := by
  have hempty : (([] ++ entries).map Prod.fst).Nodup := hnodup
  exact foldl_insertEntry_of_nodup hempty

theorem mem_insertEntry {entry : Text × α} (h : entry ∈ insertEntry key value done) :
    entry = (key, value) ∨ entry ∈ done := by
  induction done with
  | nil => exact Or.inl (List.mem_singleton.mp h)
  | cons first rest ih =>
      obtain ⟨k, v⟩ := first
      rw [insertEntry] at h
      split at h
      · rename_i hk
        subst hk
        rcases List.mem_cons.mp h with rfl | h
        · exact Or.inl rfl
        · exact Or.inr (List.mem_cons_of_mem _ h)
      · rcases List.mem_cons.mp h with rfl | h
        · exact Or.inr List.mem_cons_self
        · exact (ih h).imp_right (List.mem_cons_of_mem _)

theorem mem_foldl_insertEntry {entry : Text × α}
    (h : entry ∈ entries.foldl (fun d e => insertEntry e.1 e.2 d) done) :
    entry ∈ done ∨ entry ∈ entries := by
  induction entries generalizing done with
  | nil => exact Or.inl h
  | cons first rest ih =>
      rcases ih h with hdone | hrest
      · rcases mem_insertEntry hdone with rfl | hdone
        · exact Or.inr List.mem_cons_self
        · exact Or.inl hdone
      · exact Or.inr (List.mem_cons_of_mem _ hrest)

/-- The entries of a map are among those that it was made of. -/
theorem mem_lastEntries {entry : Text × α} (h : entry ∈ lastEntries entries) :
    entry ∈ entries := by
  rcases mem_foldl_insertEntry h with hnone | hmem
  · exact absurd hnone List.not_mem_nil
  · exact hmem

theorem mem_of_lookupEntry (h : lookupEntry key entries = some value) : (key, value) ∈ entries := by
  induction entries with
  | nil => contradiction
  | cons first rest ih =>
      obtain ⟨k, v⟩ := first
      rw [lookupEntry] at h
      split at h
      · rename_i hk
        rw [hk, Option.some.inj h]
        exact List.mem_cons_self
      · exact List.mem_cons_of_mem _ (ih h)

/-! ## Looking up -/

theorem lookupEntry_insertEntry (key other : Text) (value : α) (done : List (Text × α)) :
    lookupEntry other (insertEntry key value done) =
      if key = other then some value else lookupEntry other done := by
  induction done with
  | nil => simp [insertEntry, lookupEntry]
  | cons first rest ih =>
      obtain ⟨k, v⟩ := first
      by_cases hk : k = key
      · by_cases hother : key = other
        · simp [insertEntry, lookupEntry, hk, hother]
        · simp [insertEntry, lookupEntry, hk, hother]
      · rw [insertEntry, if_neg hk, lookupEntry, lookupEntry, ih]
        by_cases hother : key = other
        · rw [if_neg (fun hko => hk (hko.trans hother.symm)), if_pos hother, if_pos hother]
        · rw [if_neg hother, if_neg hother]

theorem lookupEntry_filter_ne (key other : Text) (entries : List (Text × α)) :
    lookupEntry other (entries.filter fun e => e.1 ≠ key) =
      if key = other then none else lookupEntry other entries := by
  induction entries with
  | nil => simp [lookupEntry]
  | cons first rest ih =>
      obtain ⟨k, v⟩ := first
      by_cases hk : k = key
      · rw [List.filter_cons_of_neg (by simp [hk]), ih, lookupEntry, hk]
        by_cases hother : key = other
        · rw [if_pos hother, if_pos hother]
        · rw [if_neg hother, if_neg hother, if_neg hother]
      · rw [List.filter_cons_of_pos (by simp [hk]), lookupEntry, lookupEntry, ih]
        by_cases hother : key = other
        · rw [if_pos hother, if_neg (fun hko => hk (hko.trans hother.symm)), if_pos hother]
        · rw [if_neg hother, if_neg hother]

/-- An entry is found under its key when no other one has this key. -/
theorem lookupEntry_of_mem (hnodup : (entries.map Prod.fst).Nodup)
    (h : (key, value) ∈ entries) : lookupEntry key entries = some value := by
  induction entries with
  | nil => contradiction
  | cons first rest ih =>
      obtain ⟨k, v⟩ := first
      obtain ⟨hk, hrest⟩ := List.nodup_cons.mp hnodup
      rcases List.mem_cons.mp h with heq | hmem
      · obtain ⟨rfl, rfl⟩ := Prod.mk.inj heq
        rw [lookupEntry, if_pos rfl]
      · have hkey : key ∈ rest.map Prod.fst := List.mem_map.mpr ⟨_, hmem, rfl⟩
        have hne : ¬ k = key := fun heq => hk (heq.symm ▸ hkey)
        rw [lookupEntry, if_neg hne, ih hrest hmem]

theorem TextMap.get?_insert (m : TextMap α) (key other : Text) (value : α) :
    (m.insert key value).get? other = if key = other then some value else m.get? other :=
  lookupEntry_insertEntry key other value m.entries

theorem TextMap.get?_erase (m : TextMap α) (key other : Text) :
    (m.erase key).get? other = if key = other then none else m.get? other :=
  lookupEntry_filter_ne key other m.entries

theorem TextMap.get?_eq_some_iff {m : TextMap α} :
    m.get? key = some value ↔ (key, value) ∈ m.entries :=
  ⟨mem_of_lookupEntry, lookupEntry_of_mem m.nodup⟩

/-- A map is read off its entries, when each value is read off what stands for
it. -/
theorem TextMap.ofList_mapValues {f : α → β} {g : β → α} (hg : ∀ a, g (f a) = a)
    (m : TextMap α) :
    (TextMap.ofList (m.entries.map fun e => (e.1, f e.2))).mapValues g = m := by
  apply TextMap.ext_entries
  have hnodup : ((m.entries.map fun e => (e.1, f e.2)).map Prod.fst).Nodup :=
    (m.mapValues f).nodup
  show (lastEntries (m.entries.map fun e => (e.1, f e.2))).map (fun e => (e.1, g e.2)) = m.entries
  rw [lastEntries_of_nodup hnodup, List.map_map]
  have hid : ((fun e : Text × β => (e.1, g e.2)) ∘ fun e : Text × α => (e.1, f e.2)) = id := by
    ext e
    · rfl
    · exact hg e.2
  rw [hid, List.map_id]

end Lifeline
