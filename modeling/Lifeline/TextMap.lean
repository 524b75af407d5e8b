import Lifeline.Text.Blank

/-!
# Finite maps from texts

Tooltips, annotations of participants and saved diagrams are maps from texts
whose order can be seen: a new key goes to the end, and a key that is written
again keeps its place.  The keys are distinct by construction.
-/

namespace Lifeline

variable {α β : Type}

/-- Writes a value under a key in a list of entries: in place of the value the
key has, or at the end. -/
def insertEntry (key : Text) (value : α) : List (Text × α) → List (Text × α)
  | [] => [(key, value)]
  | (k, v) :: rest =>
      if k = key then (k, value) :: rest else (k, v) :: insertEntry key value rest

/-- The value under a key in a list of entries. -/
def lookupEntry (key : Text) : List (Text × α) → Option α
  | [] => none
  | (k, v) :: rest => if k = key then some v else lookupEntry key rest

/-- The entries of a list in order of first appearance, each key with the last
value written under it. -/
def lastEntries (entries : List (Text × α)) : List (Text × α) :=
  entries.foldl (fun done entry => insertEntry entry.1 entry.2 done) []

theorem keys_insertEntry (key : Text) (value : α) (entries : List (Text × α)) :
    (insertEntry key value entries).map Prod.fst =
      if key ∈ entries.map Prod.fst then entries.map Prod.fst
      else entries.map Prod.fst ++ [key] := by
  induction entries with
  | nil => simp [insertEntry]
  | cons entry rest ih =>
      obtain ⟨k, v⟩ := entry
      by_cases h : k = key
      · simp [insertEntry, h]
      · have h' : ¬ key = k := fun e => h e.symm
        simp only [insertEntry, h, if_false, List.map_cons, ih, List.mem_cons, h', false_or]
        split <;> simp

theorem nodup_keys_insertEntry {key : Text} {value : α} {entries : List (Text × α)}
    (h : (entries.map Prod.fst).Nodup) :
    ((insertEntry key value entries).map Prod.fst).Nodup := by
  rw [keys_insertEntry]
  split
  · exact h
  · rename_i hk
    rw [List.nodup_append]
    refine ⟨h, by simp, ?_⟩
    intro a ha b hb
    simp only [List.mem_singleton] at hb
    subst hb
    intro hab
    subst hab
    exact hk ha

theorem nodup_keys_lastEntries (entries : List (Text × α)) :
    ((lastEntries entries).map Prod.fst).Nodup := by
  suffices h : ∀ done : List (Text × α), (done.map Prod.fst).Nodup →
      ((entries.foldl (fun d e => insertEntry e.1 e.2 d) done).map Prod.fst).Nodup by
    exact h [] (by simp)
  induction entries with
  | nil => intro done h; simpa using h
  | cons e rest ih =>
      intro done h
      exact ih _ (nodup_keys_insertEntry h)

/-- A finite map from texts, in order of insertion. -/
structure TextMap (α : Type) where
  /-- The entries in order of insertion. -/
  entries : List (Text × α)
  /-- No key occurs twice. -/
  nodup : (entries.map Prod.fst).Nodup
deriving DecidableEq

namespace TextMap

/-- The map without entries. -/
def empty : TextMap α :=
  ⟨[], by simp⟩

/-- The keys in order. -/
def keys (m : TextMap α) : List Text :=
  m.entries.map Prod.fst

/-- The number of entries. -/
def size (m : TextMap α) : Nat :=
  m.entries.length

/-- There is no entry. -/
def isEmpty (m : TextMap α) : Bool :=
  m.entries.isEmpty

/-- The value under a key. -/
def get? (m : TextMap α) (key : Text) : Option α :=
  lookupEntry key m.entries

/-- Writes a value under a key. -/
def insert (m : TextMap α) (key : Text) (value : α) : TextMap α :=
  ⟨insertEntry key value m.entries, nodup_keys_insertEntry m.nodup⟩

/-- Removes a key. -/
def erase (m : TextMap α) (key : Text) : TextMap α :=
  ⟨m.entries.filter fun e => e.1 ≠ key,
    (List.Sublist.map Prod.fst List.filter_sublist).nodup m.nodup⟩

/-- Changes every value and keeps the keys. -/
def mapValues (f : α → β) (m : TextMap α) : TextMap β :=
  ⟨m.entries.map fun e => (e.1, f e.2), by
    have h : (m.entries.map fun e => (e.1, f e.2)).map Prod.fst = m.entries.map Prod.fst := by
      simp [List.map_map, Function.comp_def]
    rw [h]
    exact m.nodup⟩

/-- The map of a list of entries; of entries with one key the last counts. -/
def ofList (entries : List (Text × α)) : TextMap α :=
  ⟨lastEntries entries, nodup_keys_lastEntries entries⟩

@[simp] theorem entries_empty : (empty : TextMap α).entries = [] := rfl

@[simp] theorem entries_mapValues (f : α → β) (m : TextMap α) :
    (m.mapValues f).entries = m.entries.map fun e => (e.1, f e.2) := rfl

theorem ext_entries {m m' : TextMap α} (h : m.entries = m'.entries) : m = m' := by
  cases m
  cases m'
  cases h
  rfl

end TextMap
end Lifeline
