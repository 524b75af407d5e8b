import Lifeline.Proofs.Json.RoundTrip
import Lifeline.Proofs.Json.Steps

/-!
# No value is the beginning of another

The reader looks at one character beyond a number and at none beyond any other
value.  So what it read is read again when more text follows (`value_append`),
as long as no number stood at the very end.  A written string, array or object
therefore has no proper beginning that is a value of its own
(`parse_ne_ok_of_prefix`).
-/

namespace Lifeline.Json

variable {t u rest more digits : Text} {s : Text} {c : CodePoint} {negative : Bool} {v : Json}
  {p : CodePoint → Bool}

/-- Something follows, and it does not continue a number. -/
def Ended (rest : Text) : Prop :=
  rest ≠ [] ∧ Closed rest

/-! ## Beginnings that satisfy a test -/

theorem takeWhile_append_of_dropWhile (hne : t.dropWhile p ≠ []) (more : Text) :
    (t ++ more).takeWhile p = t.takeWhile p := by
  rw [List.takeWhile_append, if_neg]
  intro hall
  have hparts := congrArg List.length (List.takeWhile_append_dropWhile (p := p) (l := t))
  rw [List.length_append] at hparts
  exact hne (List.length_eq_zero_iff.mp (by omega))

theorem dropWhile_append_of_ne_nil (hne : t.dropWhile p ≠ []) (more : Text) :
    (t ++ more).dropWhile p = t.dropWhile p ++ more := by
  rw [List.dropWhile_append, if_neg]
  simpa using hne

theorem skipSpace_append_of_ne_nil (hne : skipSpace t ≠ []) (more : Text) :
    skipSpace (t ++ more) = skipSpace t ++ more :=
  dropWhile_append_of_ne_nil hne more

theorem skipSpace_append_of_eq_cons (h : skipSpace t = c :: u) (more : Text) :
    skipSpace (t ++ more) = c :: (u ++ more) := by
  have hne : skipSpace t ≠ [] := by
    rw [h]
    exact List.cons_ne_nil c u
  rw [skipSpace_append_of_ne_nil hne, h, List.cons_append]

/-- What follows a value in an array or an object has ended the value. -/
theorem ended_of_skipSpace (h : skipSpace t = c :: u) (hc : c = ',' ∨ c = ']' ∨ c = '}') :
    Ended t := by
  cases t with
  | nil => contradiction
  | cons b t =>
      refine ⟨List.cons_ne_nil b t, closed_cons ?_⟩
      cases hb : isSpace b with
      | true => exact Or.inl rfl
      | false =>
          rw [skipSpace_cons hb] at h
          obtain rfl : b = c := (List.cons.inj h).1
          exact Or.inr hc

/-! ## Numbers -/

theorem wholeDigits?_append_of_ne_nil (h : wholeDigits? t = some (digits, rest)) (hne : rest ≠ [])
    (more : Text) : wholeDigits? (t ++ more) = some (digits, rest ++ more) := by
  cases t with
  | nil => contradiction
  | cons c u =>
      unfold wholeDigits? at h
      show wholeDigits? (c :: (u ++ more)) = _
      unfold wholeDigits?
      simp only at h ⊢
      split at h
      · rename_i hzero
        obtain ⟨rfl, rfl⟩ : [c] = digits ∧ u = rest := by simpa using h
        rw [if_pos hzero]
      split at h
      · rename_i hzero hdigit
        obtain ⟨rfl, rfl⟩ : c :: u.takeWhile isDigit = digits ∧ u.dropWhile isDigit = rest := by
          simpa using h
        rw [if_neg hzero, if_pos hdigit, takeWhile_append_of_dropWhile hne,
          dropWhile_append_of_ne_nil hne]
      · contradiction

theorem fraction_append_of_ne_nil (h : fraction t = (digits, rest)) (hne : rest ≠ [])
    (hpoint : ∀ c, rest.head? = some c → c ≠ '.') (more : Text) :
    fraction (t ++ more) = (digits, rest ++ more) := by
  by_cases hstart : ∃ u, t = .char '.' :: u
  · obtain ⟨u, rfl⟩ := hstart
    simp only [fraction] at h
    split at h
    · -- A point without digits is left where it is.
      obtain ⟨-, rfl⟩ : [] = digits ∧ .char '.' :: u = rest := by simpa using h
      exact absurd rfl (hpoint '.' rfl)
    · rename_i hdigits
      obtain ⟨rfl, rfl⟩ : u.takeWhile isDigit = digits ∧ u.dropWhile isDigit = rest := by
        simpa using h
      simp only [List.cons_append, fraction, takeWhile_append_of_dropWhile hne,
        dropWhile_append_of_ne_nil hne, if_neg hdigits]
  · have hnone : ∀ c, t.head? = some c → c ≠ '.' := by
      rintro c hc rfl
      exact hstart (List.head?_eq_some_iff.mp hc)
    rw [fraction_of_ne_point hnone] at h
    obtain ⟨rfl, rfl⟩ : [] = digits ∧ t = rest := by simpa using h
    apply fraction_of_ne_point
    intro c hc
    rw [List.head?_append_of_ne_nil t hne] at hc
    exact hnone c hc

theorem exponentSign_append (hne : (exponentSign t).2 ≠ []) (more : Text) :
    exponentSign (t ++ more) = ((exponentSign t).1, (exponentSign t).2 ++ more) := by
  cases t with
  | nil => exact absurd rfl hne
  | cons c u =>
      by_cases hminus : c = '-'
      · rw [hminus]
        rfl
      by_cases hplus : c = '+'
      · rw [hplus]
        rfl
      · have hnone : ∀ t, exponentSign (c :: t) = (false, c :: t) := by
          intro t
          simp [exponentSign, hminus, hplus]
        rw [hnone, List.cons_append, hnone]

theorem exponent?_append_of_ne_nil {e : Int} (h : exponent? t = some (e, rest)) (hne : rest ≠ [])
    (more : Text) : exponent? (t ++ more) = some (e, rest ++ more) := by
  cases t with
  | nil => contradiction
  | cons c u =>
      unfold exponent? at h
      show exponent? (c :: (u ++ more)) = _
      unfold exponent?
      simp only at h ⊢
      split at h
      · rename_i hletter
        split at h
        · contradiction
        · rename_i hdigits
          obtain ⟨rfl, rfl⟩ := Prod.mk.inj (Option.some.inj h)
          -- A sign alone has no digits behind it.
          have hbehind : (exponentSign u).2 ≠ [] := by
            intro hnil
            rw [hnil] at hdigits
            exact hdigits rfl
          rw [if_pos hletter, exponentSign_append hbehind]
          simp only [takeWhile_append_of_dropWhile hne, dropWhile_append_of_ne_nil hne,
            if_neg hdigits]
      · contradiction

theorem exists_exponentLetter_of_exponent? {e : Int} (h : exponent? t = some (e, rest)) :
    ∃ c u, t = c :: u ∧ (c = 'e' ∨ c = 'E') := by
  cases t with
  | nil => contradiction
  | cons c u =>
      refine ⟨c, u, rfl, ?_⟩
      by_contra hletter
      simp [exponent?, hletter] at h

theorem ne_nil_of_fraction (h : fraction t = (digits, rest)) (hne : rest ≠ []) : t ≠ [] := by
  rintro rfl
  obtain ⟨-, rfl⟩ : [] = digits ∧ [] = rest := by simpa [fraction] using h
  exact hne rfl

/-- The digits and the fraction of a number without exponent are read again when more follows. -/
theorem parts_append {behind : Text} (hwhole : wholeDigits? t = some (whole, behind))
    (hfraction : fraction behind = (digits, rest)) (hrest : Ended rest) (more : Text) :
    wholeDigits? (t ++ more) = some (whole, behind ++ more) ∧
      fraction (behind ++ more) = (digits, rest ++ more) ∧ exponent? (rest ++ more) = none := by
  obtain ⟨hne, hclosed⟩ := hrest
  have hpoint : ∀ c, rest.head? = some c → c ≠ '.' := fun c hc => (hclosed c hc).2.1
  have hmore : Closed (rest ++ more) := by
    intro c hc
    rw [List.head?_append_of_ne_nil rest hne] at hc
    exact hclosed c hc
  have hbehind := ne_nil_of_fraction hfraction hne
  exact ⟨wholeDigits?_append_of_ne_nil hwhole hbehind more,
    fraction_append_of_ne_nil hfraction hne hpoint more, exponent?_of_closed hmore⟩

/-- A number that has ended is read again when more follows. -/
theorem number_append (h : number negative t = .ok (v, rest)) (hrest : Ended rest)
    (more : Text) : number negative (t ++ more) = .ok (v, rest ++ more) := by
  rw [number_eq_ok_iff] at h ⊢
  cases h with
  | power hwhole hfraction hexponent =>
      -- The letter of the exponent keeps the fraction from going on.
      obtain ⟨c, u, rfl, hletter⟩ := exists_exponentLetter_of_exponent? hexponent
      have hpoint : ∀ d, (c :: u).head? = some d → d ≠ '.' := by
        intro d hd
        obtain rfl : c = d := Option.some.inj hd
        rcases hletter with rfl | rfl
        · decide
        · decide
      have hbehind := ne_nil_of_fraction hfraction (List.cons_ne_nil c u)
      exact .power (wholeDigits?_append_of_ne_nil hwhole hbehind more)
        (fraction_append_of_ne_nil hfraction (List.cons_ne_nil c u) hpoint more)
        (exponent?_append_of_ne_nil hexponent hrest.1 more)
  | point hwhole hfraction hexponent hdigits =>
      obtain ⟨hwhole, hfraction, hexponent⟩ := parts_append hwhole hfraction hrest more
      exact .point hwhole hfraction hexponent hdigits
  | whole hwhole hfraction hexponent hlength =>
      obtain ⟨hwhole, hfraction, hexponent⟩ := parts_append hwhole hfraction hrest more
      exact .whole hwhole hfraction hexponent hlength

/-! ## Words -/

theorem scalarValue_word_append : ∀ word ∈ words, ∀ rest,
    scalarValue (word.1 ++ rest) = .ok (word.2, rest) := by
  simp only [words, List.forall_mem_cons]
  refine ⟨fun _ => rfl, fun _ => rfl, fun _ => rfl, fun _ => rfl, fun _ => rfl, fun _ => rfl, ?_⟩
  exact fun word hword => absurd hword List.not_mem_nil

/-- A word, or a number with its sign. -/
theorem scalarValue_cases (h : scalarValue t = .ok (v, rest)) :
    (∃ word ∈ words, t = word.1 ++ rest ∧ v = word.2) ∨
      ∃ negative u, t = (if negative then .char '-' :: u else u) ∧
        number negative u = .ok (v, rest) := by
  unfold scalarValue at h
  split at h
  · rename_i answer hanswer
    obtain ⟨word, hword, hfound⟩ := List.exists_of_findSome?_eq_some hanswer
    obtain ⟨behind, hbehind, rfl⟩ := Option.map_eq_some_iff.mp hfound
    obtain ⟨rfl, rfl⟩ := Prod.mk.inj (Except.ok.inj h)
    exact Or.inl ⟨word, hword, Text.after?_eq_some_iff.mp hbehind, rfl⟩
  · split at h
    · rename_i u hnone
      exact Or.inr ⟨true, u, rfl, h⟩
    · exact Or.inr ⟨false, t, rfl, h⟩

theorem scalarValue_append (h : scalarValue t = .ok (v, rest)) (hrest : Ended rest)
    (more : Text) : scalarValue (t ++ more) = .ok (v, rest ++ more) := by
  rcases scalarValue_cases h with ⟨word, hword, rfl, rfl⟩ | ⟨negative, u, rfl, hnumber⟩
  · rw [List.append_assoc]
    exact scalarValue_word_append word hword (rest ++ more)
  · rw [signed_append]
    exact scalarValue_of_number (number_append hnumber hrest more)

/-! ## Strings -/

theorem ReadsUnits.append {us : List StringUnit} (h : ReadsUnits t us rest) (more : Text) :
    ReadsUnits (t ++ more) us (rest ++ more) := by
  induction h with
  | quote rest => exact .quote (rest ++ more)
  | code hnumber hread ih => exact .code hnumber ih
  | letter hescape hread ih => exact .letter hescape ih
  | plain hquote hplain hread ih => exact .plain hquote hplain ih

theorem string?_append (h : string? t = some (s, rest)) (more : Text) :
    string? (t ++ more) = some (s, rest ++ more) := by
  unfold string? at h ⊢
  obtain ⟨⟨us, behind⟩, hunits, hparts⟩ := Option.map_eq_some_iff.mp h
  obtain ⟨rfl, rfl⟩ := Prod.mk.inj hparts
  rw [((readsUnits_of_stringUnits? hunits).append more).stringUnits?_eq]
  rfl

/-! ## Values -/

/-- A value that shows its end: a string, an array or an object. -/
def ShowsEnd (t : Text) : Prop :=
  ∃ c u, t = c :: u ∧ (c = '"' ∨ c = '[' ∨ c = '{')

/-- Values that are read with a fuel are read with more fuel when more
follows. -/
def ValuesReadOn (fuel : Nat) : Prop :=
  ∀ {room t rest v}, value fuel room t = .ok (v, rest) → ShowsEnd t ∨ Ended rest →
    ∀ k more, value (fuel + k) room (t ++ more) = .ok (v, rest ++ more)

/-- The same for the items of an array. -/
def ItemsReadOn (fuel : Nat) : Prop :=
  ∀ {room t rest vs}, items fuel room t = .ok (vs, rest) →
    ∀ k more, items (fuel + k) room (t ++ more) = .ok (vs, rest ++ more)

/-- The same for the fields of an object. -/
def FieldsReadOn (fuel : Nat) : Prop :=
  ∀ {room t rest fs}, fields fuel room t = .ok (fs, rest) →
    ∀ k more, fields (fuel + k) room (t ++ more) = .ok (fs, rest ++ more)

variable {fuel room : Nat}

theorem valuesReadOn_succ (hitems : ItemsReadOn fuel) (hfields : FieldsReadOn fuel) :
    ValuesReadOn (fuel + 1) := by
  intro room t rest v h hend k more
  rw [Nat.add_right_comm]
  rw [value_succ_eq_ok_iff] at h ⊢
  cases h with
  | string hstring => exact .string (string?_append hstring more)
  | emptyArray hclose => exact .emptyArray (skipSpace_append_of_eq_cons hclose more)
  | array hstart hopen hinside =>
      exact .array (skipSpace_append_of_eq_cons hstart more) hopen (hitems hinside k more)
  | emptyObject hclose => exact .emptyObject (skipSpace_append_of_eq_cons hclose more)
  | object hstart hopen hinside =>
      exact .object (skipSpace_append_of_eq_cons hstart more) hopen (hfields hinside k more)
  | @scalar room u rest c v hquote hbracket hbrace hscalar =>
      have hended : Ended rest := by
        rcases hend with ⟨d, w, hcons, hd⟩ | hended
        · obtain rfl : c = d := (List.cons.inj hcons).1
          rcases hd with hd | hd | hd
          · exact absurd hd hquote
          · exact absurd hd hbracket
          · exact absurd hd hbrace
        · exact hended
      exact .scalar hquote hbracket hbrace (scalarValue_append hscalar hended more)

theorem ne_nil_of_eq_ok {α : Type} (read : Text → Except ReadError α) {answer : α}
    (hnil : read [] = .error .malformed) (h : read t = .ok answer) : t ≠ [] := by
  rintro rfl
  rw [hnil] at h
  contradiction

theorem itemsReadOn_succ (hvalues : ValuesReadOn fuel) (hitems : ItemsReadOn fuel) :
    ItemsReadOn (fuel + 1) := by
  intro room t rest vs h k more
  rw [Nat.add_right_comm]
  rw [items_succ_eq_ok_iff] at h ⊢
  cases h with
  | last hvalue hclose =>
      have hended := ended_of_skipSpace hclose (Or.inr (Or.inl rfl))
      exact .last (hvalues hvalue (Or.inr hended) k more) (skipSpace_append_of_eq_cons hclose more)
  | more hvalue hcomma hlater =>
      have hended := ended_of_skipSpace hcomma (Or.inl rfl)
      have hnext := hitems hlater k more
      have hne := ne_nil_of_eq_ok (items fuel room) (items_nil fuel room) hlater
      rw [← skipSpace_append_of_ne_nil hne] at hnext
      exact .more (hvalues hvalue (Or.inr hended) k more)
        (skipSpace_append_of_eq_cons hcomma more) hnext

theorem fieldStep_append {f : Text × Json} (hvalues : ValuesReadOn fuel)
    (h : FieldStep fuel room t f rest) (hended : Ended rest) (k : Nat) (more : Text) :
    FieldStep (fuel + k) room (t ++ more) f (rest ++ more) := by
  cases h with
  | field hkey hcolon hvalue =>
      have hne := ne_nil_of_eq_ok (value fuel room) (value_nil fuel room) hvalue
      have hread := hvalues hvalue (Or.inr hended) k more
      rw [← skipSpace_append_of_ne_nil hne] at hread
      exact .field (string?_append hkey more) (skipSpace_append_of_eq_cons hcolon more) hread

theorem fieldsReadOn_succ (hvalues : ValuesReadOn fuel) (hfields : FieldsReadOn fuel) :
    FieldsReadOn (fuel + 1) := by
  intro room t rest fs h k more
  rw [Nat.add_right_comm]
  rw [fields_succ_eq_ok_iff] at h ⊢
  cases h with
  | last hfield hclose =>
      have hended := ended_of_skipSpace hclose (Or.inr (Or.inr rfl))
      exact .last (fieldStep_append hvalues hfield hended k more)
        (skipSpace_append_of_eq_cons hclose more)
  | more hfield hcomma hlater =>
      have hended := ended_of_skipSpace hcomma (Or.inl rfl)
      have hnext := hfields hlater k more
      have hne := ne_nil_of_eq_ok (fields fuel room) (fields_nil fuel room) hlater
      rw [← skipSpace_append_of_ne_nil hne] at hnext
      exact .more (fieldStep_append hvalues hfield hended k more)
        (skipSpace_append_of_eq_cons hcomma more) hnext

theorem readOn (fuel : Nat) : ValuesReadOn fuel ∧ ItemsReadOn fuel ∧ FieldsReadOn fuel := by
  induction fuel with
  | zero =>
      refine ⟨?_, ?_, ?_⟩
      · intro room t rest v h
        rw [value] at h
        contradiction
      · intro room t rest vs h
        rw [items] at h
        contradiction
      · intro room t rest fs h
        rw [fields] at h
        contradiction
  | succ fuel ih =>
      obtain ⟨hvalues, hitems, hfields⟩ := ih
      exact ⟨valuesReadOn_succ hitems hfields, itemsReadOn_succ hvalues hitems,
        fieldsReadOn_succ hvalues hfields⟩

/-- A value that was read is read again when more follows it, unless it is a
number at the very end. -/
theorem value_append (h : value fuel room t = .ok (v, rest)) (hend : ShowsEnd t ∨ Ended rest)
    (k : Nat) (more : Text) : value (fuel + k) room (t ++ more) = .ok (v, rest ++ more) :=
  (readOn fuel).1 h hend k more

/-! ## Beginnings of written values -/

/-- A proper beginning of a written value that shows its end is not JSON. -/
theorem parse_ne_ok_of_prefix [Stack] {layout : Layout} (hlayout : layout.Punctuated)
    (hv : Readable Stack.room v) (hunsplit : AllTexts isUnsplit v)
    (hshows : ShowsEnd (write layout v)) {part : Text} (hpart : part <+: write layout v)
    (hne : part ≠ write layout v) (w : Json) : parse part ≠ .ok w := by
  intro hparse
  obtain ⟨later, hlater⟩ := hpart
  -- The value that is read from the beginning would be the whole value, with `later` behind it.
  have hlaterNe : later ≠ [] := by
    rintro rfl
    exact hne (by rw [← hlater, List.append_nil])
  cases part with
  | nil => simp [parse, skipSpace, value_nil] at hparse
  | cons c u =>
      have hstart : c = '"' ∨ c = '[' ∨ c = '{' := by
        obtain ⟨d, w, hcons, hd⟩ := hshows
        rw [← hlater] at hcons
        obtain rfl : c = d := (List.cons.inj hcons).1
        exact hd
      have hspace : skipSpace (c :: u) = c :: u := by
        apply skipSpace_cons
        rcases hstart with rfl | rfl | rfl
        · rfl
        · rfl
        · rfl
      unfold parse at hparse
      rw [hspace] at hparse
      split at hparse
      · contradiction
      · rename_i read rest hvalue
        have hmore := value_append hvalue (Or.inl ⟨c, u, rfl, hstart⟩)
          (2 * (write layout v).length) later
        have hwhole := readsBack_of_readable hlayout hv hunsplit 0
          (2 * (c :: u).length + 2 + 2 * (write layout v).length) [] closed_nil
          (by unfold write; omega)
        rw [List.append_nil] at hwhole
        rw [hlater] at hmore
        have hsame := Except.ok.inj (hmore.symm.trans hwhole)
        exact hlaterNe (List.append_eq_nil_iff.mp (Prod.mk.inj hsame).2).2

end Lifeline.Json
