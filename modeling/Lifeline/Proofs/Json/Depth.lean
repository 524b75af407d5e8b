import Lifeline.Proofs.Json.LongIntegers

/-!
# Texts that nest too deep

A text is refused for its nesting, and not as malformed, only when it has more opening
brackets than there is room for (`room_lt_openings_of_parse`).  Brackets in a row, one more
than there is room for, are refused for it.  What follows makes no difference: the reader does
not come so far as to see it (`parse_tooDeep_append`).
-/

namespace Lifeline.Json

variable {fuel room : Nat} {t u : Text}

/-- How many brackets and braces a text opens. -/
def openings (t : Text) : Nat :=
  t.countP fun c => c = .char '[' ∨ c = .char '{'

theorem openings_le_of_suffix (h : u <:+ t) : openings u ≤ openings t :=
  h.sublist.countP_le

theorem openings_cons_of_opens {c : CodePoint} (hc : c = .char '[' ∨ c = .char '{') :
    openings (c :: t) = openings t + 1 :=
  List.countP_cons_of_pos (by simpa using hc)

/-! ## What is refused -/

theorem number_ne_tooDeep {negative : Bool} : number negative t ≠ .error .tooDeep := by
  unfold number
  split
  · nofun
  · split
    split
    · nofun
    split
    · nofun
    split
    · nofun
    · nofun

theorem scalarValue_ne_tooDeep : scalarValue t ≠ .error .tooDeep := by
  unfold scalarValue
  split
  · nofun
  · split
    · exact number_ne_tooDeep
    · exact number_ne_tooDeep

theorem traced_tooDeep : Traced .tooDeep fun room t => room < openings t where
  tooDeep := by
    intro _ c t hc
    rw [openings_cons_of_opens hc]
    exact Nat.succ_pos _
  scalar h := absurd h scalarValue_ne_tooDeep
  inside := by
    intro room c t hc h
    rw [openings_cons_of_opens hc]
    exact Nat.succ_lt_succ h
  suffix h hsuffix := h.trans_le (openings_le_of_suffix hsuffix)

/-- Only a text that opens more than there is room for is refused for its nesting. -/
theorem room_lt_openings_of_parse [Stack] (h : parse t = .error .tooDeep) :
    Stack.room < openings t :=
  traced_tooDeep.of_parse (by decide) h

/-! ## More text behind -/

/-- Values that nest too deep still do when more follows. -/
def ValuesTooDeepOn (fuel : Nat) : Prop :=
  ∀ {room t}, value fuel room t = .error .tooDeep →
    ∀ k more, value (fuel + k) room (t ++ more) = .error .tooDeep

/-- The same for the items of an array. -/
def ItemsTooDeepOn (fuel : Nat) : Prop :=
  ∀ {room t}, items fuel room t = .error .tooDeep →
    ∀ k more, items (fuel + k) room (t ++ more) = .error .tooDeep

/-- The same for the fields of an object. -/
def FieldsTooDeepOn (fuel : Nat) : Prop :=
  ∀ {room t}, fields fuel room t = .error .tooDeep →
    ∀ k more, fields (fuel + k) room (t ++ more) = .error .tooDeep

theorem skipSpace_ne_nil_of_tooDeep {α : Type} (read : Text → Except ReadError α)
    (hnil : read [] = .error .malformed) (h : read (skipSpace t) = .error .tooDeep) :
    skipSpace t ≠ [] := by
  intro hempty
  rw [hempty, hnil] at h
  cases h

theorem skipSpace_append_ne_cons {c : CodePoint} (hne : skipSpace t ≠ [])
    (hopen : ∀ u, skipSpace t ≠ c :: u) (more : Text) (u : Text) :
    skipSpace (t ++ more) ≠ c :: u := by
  obtain ⟨d, w, hcons⟩ := List.exists_cons_of_ne_nil hne
  rw [skipSpace_append_of_eq_cons hcons]
  intro hsame
  exact hopen w (by rw [hcons, (List.cons.inj hsame).1])

theorem valuesTooDeepOn_succ (hitems : ItemsTooDeepOn fuel) (hfields : FieldsTooDeepOn fuel) :
    ValuesTooDeepOn (fuel + 1) := by
  intro room t h k more
  rw [Nat.add_right_comm]
  rw [value_succ_eq_error_iff (by decide)] at h ⊢
  cases h with
  | tooDeep hc => exact .tooDeep hc
  | @items room t _ hopen hread =>
      have hne := skipSpace_ne_nil_of_tooDeep (items fuel room) (items_nil fuel room) hread
      have hmore := hitems hread k more
      rw [← skipSpace_append_of_ne_nil hne] at hmore
      exact .items (skipSpace_append_ne_cons hne hopen more) hmore
  | @fields room t _ hopen hread =>
      have hne := skipSpace_ne_nil_of_tooDeep (fields fuel room) (fields_nil fuel room) hread
      have hmore := hfields hread k more
      rw [← skipSpace_append_of_ne_nil hne] at hmore
      exact .fields (skipSpace_append_ne_cons hne hopen more) hmore
  | scalar hquote hbracket hbrace hscalar => exact absurd hscalar scalarValue_ne_tooDeep

theorem itemsTooDeepOn_succ (hvalues : ValuesTooDeepOn fuel) (hitems : ItemsTooDeepOn fuel) :
    ItemsTooDeepOn (fuel + 1) := by
  intro room t h k more
  rw [Nat.add_right_comm]
  rw [items_succ_eq_error_iff (by decide)] at h ⊢
  cases h with
  | value hread => exact .value (hvalues hread k more)
  | items hread hcomma hlater =>
      have hended := ended_of_skipSpace hcomma (Or.inl rfl)
      have hne := skipSpace_ne_nil_of_tooDeep (items fuel room) (items_nil fuel room) hlater
      have hmore := hitems hlater k more
      rw [← skipSpace_append_of_ne_nil hne] at hmore
      exact .items ((readOn fuel).1 hread (Or.inr hended) k more)
        (skipSpace_append_of_eq_cons hcomma more) hmore

theorem fieldsTooDeepOn_succ (hvalues : ValuesTooDeepOn fuel) (hfields : FieldsTooDeepOn fuel) :
    FieldsTooDeepOn (fuel + 1) := by
  intro room t h k more
  rw [Nat.add_right_comm]
  rw [fields_succ_eq_error_iff (by decide)] at h ⊢
  cases h with
  | value hkey hcolon hread =>
      have hne := skipSpace_ne_nil_of_tooDeep (value fuel room) (value_nil fuel room) hread
      have hmore := hvalues hread k more
      rw [← skipSpace_append_of_ne_nil hne] at hmore
      exact .value (string?_append hkey more) (skipSpace_append_of_eq_cons hcolon more) hmore
  | fields hfield hcomma hlater =>
      have hended := ended_of_skipSpace hcomma (Or.inl rfl)
      have hne := skipSpace_ne_nil_of_tooDeep (fields fuel room) (fields_nil fuel room) hlater
      have hmore := hfields hlater k more
      rw [← skipSpace_append_of_ne_nil hne] at hmore
      exact .fields (fieldStep_append (readOn fuel).1 hfield hended k more)
        (skipSpace_append_of_eq_cons hcomma more) hmore

theorem tooDeepOn (fuel : Nat) :
    ValuesTooDeepOn fuel ∧ ItemsTooDeepOn fuel ∧ FieldsTooDeepOn fuel := by
  induction fuel with
  | zero =>
      refine ⟨?_, ?_, ?_⟩
      · intro room t h
        rw [value] at h
        cases h
      · intro room t h
        rw [items] at h
        cases h
      · intro room t h
        rw [fields] at h
        cases h
  | succ fuel ih =>
      obtain ⟨hvalues, hitems, hfields⟩ := ih
      exact ⟨valuesTooDeepOn_succ hitems hfields, itemsTooDeepOn_succ hvalues hitems,
        fieldsTooDeepOn_succ hvalues hfields⟩

/-- A text that nests too deep still does when more follows. -/
theorem parse_tooDeep_append [Stack] (h : parse t = .error .tooDeep) (more : Text) :
    parse (t ++ more) = .error .tooDeep := by
  unfold parse at h
  split at h
  · rename_i fault hread
    obtain rfl := Except.error.inj h
    have hne := skipSpace_ne_nil_of_tooDeep (value _ Stack.room) (value_nil _ _) hread
    have hmore := (tooDeepOn _).1 hread (2 * more.length) more
    have hfuel : 2 * t.length + 2 + 2 * more.length = 2 * (t ++ more).length + 2 := by
      rw [List.length_append]
      omega
    rw [hfuel, ← skipSpace_append_of_ne_nil hne] at hmore
    rw [parse, hmore]
  · split at h <;> cases h

/-- No beginning of what is written for a readable value nests too deep. -/
theorem parse_ne_tooDeep_of_prefix [Stack] {layout : Layout} (hlayout : layout.Punctuated)
    {v : Json} (hv : Readable Stack.room v) (hunsplit : AllTexts isUnsplit v) {part : Text}
    (hpart : part <+: write layout v) :
    parse part ≠ .error .tooDeep := by
  intro hdeep
  obtain ⟨later, hlater⟩ := hpart
  have hwhole := parse_tooDeep_append hdeep later
  rw [hlater, parse_write hlayout hv hunsplit] at hwhole
  cases hwhole

/-! ## Brackets in a row -/

theorem value_replicate (hfuel : 2 * room < fuel) :
    value fuel room (List.replicate (room + 1) (.char '[') ++ t) = .error .tooDeep := by
  induction room generalizing fuel with
  | zero =>
      obtain ⟨fuel, rfl⟩ : ∃ n, fuel = n + 1 := ⟨fuel - 1, by omega⟩
      exact value_tooDeep (Or.inl rfl)
  | succ room ih =>
      obtain ⟨fuel, rfl⟩ : ∃ n, fuel = n + 2 := ⟨fuel - 2, by omega⟩
      have hinside : skipSpace (List.replicate (room + 1) (.char '[') ++ t) =
          List.replicate (room + 1) (.char '[') ++ t := skipSpace_cons rfl
      have hread : items (fuel + 1) room (List.replicate (room + 1) (.char '[') ++ t) =
          .error .tooDeep := by
        rw [items, ih (by omega)]
      rw [List.replicate_succ, List.cons_append, value, if_neg (by decide), if_pos rfl, hinside]
      split
      · rename_i behind hclose
        exact absurd (List.cons.inj hclose).1 (by decide)
      · rw [hread]

/-- One bracket more than there is room for is refused, whatever follows. -/
theorem parse_replicate [Stack] (t : Text) :
    parse (List.replicate (Stack.room + 1) (.char '[') ++ t) = .error .tooDeep := by
  have hstart : skipSpace (List.replicate (Stack.room + 1) (.char '[') ++ t) =
      List.replicate (Stack.room + 1) (.char '[') ++ t := skipSpace_cons rfl
  have hlength :
      Stack.room < (List.replicate (Stack.room + 1) (CodePoint.char '[') ++ t).length := by
    rw [List.length_append, List.length_replicate]
    omega
  unfold parse
  rw [hstart, value_replicate (by omega)]

end Lifeline.Json
