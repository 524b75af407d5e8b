import Lifeline.Json.Reader

/-!
# One step of the reader

The readers of values, items and fields call each other with one unit of fuel
less.  Each of three relations says what one such call can give, and the
reader gives an answer exactly when its relation holds; three more say where an
error was met.  A number has a relation of its own, and so have the units of a
string, which are read in one go: that relation is recursive.  Facts about what
is read and what is refused are proved by cases or induction on these
relations, without looking into the reader.
-/

namespace Lifeline.Json

variable {fuel room : Nat} {t u behind rest : Text} {s k : Text} {c : CodePoint} {v : Json}
  {vs : List Json} {fs : List (Text × Json)}

/-! ## Strings -/

/-- The units that are read of a text behind an opening quote, and what is left behind the closing
one. -/
inductive ReadsUnits : Text → List StringUnit → Text → Prop
  | quote (rest : Text) : ReadsUnits (.char '"' :: rest) [] rest
  | code {a b c d : CodePoint} {n : Nat} {t rest : Text} {us : List StringUnit}
      (hnumber : hexNumber? a b c d = some n) (hread : ReadsUnits t us rest) :
      ReadsUnits (.char '\\' :: .char 'u' :: a :: b :: c :: d :: t) (.code n :: us) rest
  | letter {e c : CodePoint} {t rest : Text} {us : List StringUnit} (hescape : escape? e = some c)
      (hread : ReadsUnits t us rest) : ReadsUnits (.char '\\' :: e :: t) (.char c :: us) rest
  | plain {c : CodePoint} {t rest : Text} {us : List StringUnit} (hquote : c ≠ '"')
      (hplain : ¬ (c.toNat < 32 ∨ c = '\\')) (hread : ReadsUnits t us rest) :
      ReadsUnits (c :: t) (.char c :: us) rest

theorem readsUnits_of_stringUnits? {us : List StringUnit} (h : stringUnits? t = some (us, rest)) :
    ReadsUnits t us rest := by
  induction t using stringUnits?.induct generalizing us with
  | case1 => simp [stringUnits?] at h
  | case2 tail =>
      obtain ⟨rfl, rfl⟩ : [] = us ∧ tail = rest := by simpa [stringUnits?] using h
      exact .quote tail
  | case3 a b c d tail hnumber => simp [stringUnits?, hnumber] at h
  | case4 a b c d tail n hnumber ih =>
      simp only [stringUnits?, hnumber, Option.map_eq_some_iff] at h
      obtain ⟨⟨later, behind⟩, hlater, hparts⟩ := h
      obtain ⟨rfl, rfl⟩ := Prod.mk.inj hparts
      exact .code hnumber (ih hlater)
  | case5 e tail hshort hescape =>
      rw [stringUnits?, hescape] at h
      · contradiction
      · exact hshort
  | case6 e tail hshort c hescape ih =>
      rw [stringUnits?, hescape] at h
      · obtain ⟨⟨later, behind⟩, hlater, hparts⟩ := Option.map_eq_some_iff.mp h
        obtain ⟨rfl, rfl⟩ := Prod.mk.inj hparts
        exact .letter hescape (ih hlater)
      · exact hshort
  | case7 c tail hquote hlong hshort hrefused =>
      rw [stringUnits?, if_pos hrefused] at h
      · contradiction
      · exact hquote
      · exact hlong
      · exact hshort
  | case8 c tail hquote hlong hshort hrefused ih =>
      rw [stringUnits?, if_neg hrefused] at h
      · obtain ⟨⟨later, behind⟩, hlater, hparts⟩ := Option.map_eq_some_iff.mp h
        obtain ⟨rfl, rfl⟩ := Prod.mk.inj hparts
        exact .plain hquote hrefused (ih hlater)
      · exact hquote
      · exact hlong
      · exact hshort

theorem ReadsUnits.stringUnits?_eq {us : List StringUnit} (h : ReadsUnits t us rest) :
    stringUnits? t = some (us, rest) := by
  induction h with
  | quote rest => rfl
  | code hnumber hread ih =>
      rw [stringUnits?, hnumber, ih]
      rfl
  | letter hescape hread ih =>
      rw [stringUnits?, hescape, ih]
      · rfl
      · -- No letter behind a backslash begins a number.
        rintro a b c d tail rfl
        contradiction
  | plain hquote hplain hread ih =>
      obtain ⟨hlong, hslash⟩ := not_or.mp hplain
      rw [stringUnits?, if_neg hplain, ih]
      · rfl
      · exact hquote
      · exact fun _ _ _ _ _ hc => absurd hc hslash
      · exact fun _ _ hc => absurd hc hslash

/-! ## Numbers -/

/-- What a number is read as: with an exponent, with digits behind the point, or as a whole
number that is not too long. -/
inductive NumberStep (negative : Bool) : Text → Json → Text → Prop
  | power {t behind tail rest whole digits : Text} {e : Int}
      (hwhole : wholeDigits? t = some (whole, behind))
      (hfraction : fraction behind = (digits, tail))
      (hexponent : exponent? tail = some (e, rest)) :
      NumberStep negative t
        (.real (.ofDecimal negative ⟨digitsValue (whole ++ digits), e - digits.length⟩)) rest
  | point {t behind rest whole digits : Text}
      (hwhole : wholeDigits? t = some (whole, behind))
      (hfraction : fraction behind = (digits, rest))
      (hexponent : exponent? rest = none) (hdigits : digits ≠ []) :
      NumberStep negative t
        (.real (.ofDecimal negative ⟨digitsValue (whole ++ digits), -digits.length⟩)) rest
  | whole {t behind rest whole : Text}
      (hwhole : wholeDigits? t = some (whole, behind)) (hfraction : fraction behind = ([], rest))
      (hexponent : exponent? rest = none) (hlength : whole.length ≤ maxIntegerDigits) :
      NumberStep negative t
        (.int (if negative then -(digitsValue whole : Int) else digitsValue whole)) rest

theorem number_eq_ok_iff {negative : Bool} :
    number negative t = .ok (v, rest) ↔ NumberStep negative t v rest := by
  constructor
  · intro h
    unfold number at h
    split at h
    · contradiction
    rename_i whole behind hwhole
    split at h
    rename_i digits tail hfraction
    split at h
    · rename_i e last hexponent
      obtain ⟨rfl, rfl⟩ := Prod.mk.inj (Except.ok.inj h)
      exact .power hwhole hfraction hexponent
    rename_i hexponent
    split at h
    · rename_i hdigits
      obtain ⟨rfl, rfl⟩ := Prod.mk.inj (Except.ok.inj h)
      exact .point hwhole hfraction hexponent (by simpa using hdigits)
    split at h
    · contradiction
    · rename_i hdigits hlength
      obtain rfl : digits = [] := by simpa using hdigits
      obtain ⟨rfl, rfl⟩ := Prod.mk.inj (Except.ok.inj h)
      exact .whole hwhole hfraction hexponent (Nat.le_of_not_lt hlength)
  · intro h
    cases h with
    | power hwhole hfraction hexponent => simp only [number, hwhole, hfraction, hexponent]
    | point hwhole hfraction hexponent hdigits =>
        simp [number, hwhole, hfraction, hexponent, hdigits]
    | whole hwhole hfraction hexponent hlength =>
        simp [number, hwhole, hfraction, hexponent, Nat.not_lt.mpr hlength]

/-! ## Values -/

/-- What a value is read as, when its parts are read with some fuel.  An array and an object
leave less room for what is inside. -/
inductive ValueStep (fuel : Nat) : Nat → Text → Json → Text → Prop
  | string {room : Nat} {t s rest : Text} (hstring : string? t = some (s, rest)) :
      ValueStep fuel room (.char '"' :: t) (.str s) rest
  | emptyArray {room : Nat} {t rest : Text} (hclose : skipSpace t = .char ']' :: rest) :
      ValueStep fuel (room + 1) (.char '[' :: t) (.arr []) rest
  | array {room : Nat} {t u rest : Text} {c : CodePoint} {vs : List Json}
      (hstart : skipSpace t = c :: u)
      (hopen : c ≠ ']') (hitems : items fuel room (c :: u) = .ok (vs, rest)) :
      ValueStep fuel (room + 1) (.char '[' :: t) (.arr vs) rest
  | emptyObject {room : Nat} {t rest : Text} (hclose : skipSpace t = .char '}' :: rest) :
      ValueStep fuel (room + 1) (.char '{' :: t) (.obj []) rest
  | object {room : Nat} {t u rest : Text} {c : CodePoint} {fs : List (Text × Json)}
      (hstart : skipSpace t = c :: u) (hopen : c ≠ '}')
      (hfields : fields fuel room (c :: u) = .ok (fs, rest)) :
      ValueStep fuel (room + 1) (.char '{' :: t) (.obj (lastEntries fs)) rest
  | scalar {room : Nat} {t rest : Text} {c : CodePoint} {v : Json} (hquote : c ≠ '"')
      (hbracket : c ≠ '[') (hbrace : c ≠ '{') (hscalar : scalarValue (c :: t) = .ok (v, rest)) :
      ValueStep fuel room (c :: t) v rest

/-- What the items of an array are read as. -/
inductive ItemsStep (fuel room : Nat) : Text → List Json → Text → Prop
  | last {t behind rest : Text} {v : Json} (hvalue : value fuel room t = .ok (v, behind))
      (hclose : skipSpace behind = .char ']' :: rest) : ItemsStep fuel room t [v] rest
  | more {t behind u rest : Text} {v : Json} {vs : List Json}
      (hvalue : value fuel room t = .ok (v, behind)) (hcomma : skipSpace behind = .char ',' :: u)
      (hitems : items fuel room (skipSpace u) = .ok (vs, rest)) :
      ItemsStep fuel room t (v :: vs) rest

/-- A key, a colon and a value. -/
inductive FieldStep (fuel room : Nat) : Text → Text × Json → Text → Prop
  | field {t behind u k rest : Text} {v : Json} (hkey : string? t = some (k, behind))
      (hcolon : skipSpace behind = .char ':' :: u)
      (hvalue : value fuel room (skipSpace u) = .ok (v, rest)) :
      FieldStep fuel room (.char '"' :: t) (k, v) rest

/-- What the fields of an object are read as. -/
inductive FieldsStep (fuel room : Nat) : Text → List (Text × Json) → Text → Prop
  | last {t behind rest : Text} {f : Text × Json} (hfield : FieldStep fuel room t f behind)
      (hclose : skipSpace behind = .char '}' :: rest) : FieldsStep fuel room t [f] rest
  | more {t behind u rest : Text} {f : Text × Json} {fs : List (Text × Json)}
      (hfield : FieldStep fuel room t f behind) (hcomma : skipSpace behind = .char ',' :: u)
      (hfields : fields fuel room (skipSpace u) = .ok (fs, rest)) :
      FieldsStep fuel room t (f :: fs) rest

theorem value_nil (fuel room : Nat) : value fuel room [] = .error .malformed := by
  cases fuel with
  | zero => rfl
  | succ fuel => rw [value]

theorem items_nil (fuel room : Nat) : items fuel room [] = .error .malformed := by
  cases fuel with
  | zero => rfl
  | succ fuel => rw [items, value_nil]

theorem fields_nil (fuel room : Nat) : fields fuel room [] = .error .malformed := by
  cases fuel with
  | zero => rfl
  | succ fuel => rw [fields]; simp

theorem value_quote (fuel room : Nat) (t : Text) :
    value (fuel + 1) room (.char '"' :: t) =
      match string? t with
      | some (s, behind) => .ok (.str s, behind)
      | none => .error .malformed := by
  cases room with
  | zero =>
      rw [value]
      exact if_pos rfl
  | succ room =>
      rw [value]
      exact if_pos rfl

theorem value_scalar (hquote : c ≠ '"') (hbracket : c ≠ '[') (hbrace : c ≠ '{') :
    value (fuel + 1) room (c :: t) = scalarValue (c :: t) := by
  cases room with
  | zero => rw [value, if_neg hquote, if_neg hbracket, if_neg hbrace]
  | succ room => rw [value, if_neg hquote, if_neg hbracket, if_neg hbrace]

/-! ## Arrays and objects -/

/-- Without room nothing is opened. -/
theorem value_tooDeep (hc : c = '[' ∨ c = '{') :
    value (fuel + 1) 0 (c :: t) = .error .tooDeep := by
  rcases hc with rfl | rfl
  · rw [value, if_neg (by decide), if_pos rfl]
  · rw [value, if_neg (by decide), if_neg (by decide), if_pos rfl]

theorem value_array_eq_ok (h : value (fuel + 1) room (.char '[' :: t) = .ok (v, rest)) :
    ValueStep fuel room (.char '[' :: t) v rest := by
  cases room with
  | zero =>
      rw [value_tooDeep (Or.inl rfl)] at h
      contradiction
  | succ room =>
      rw [value, if_neg (by decide), if_pos rfl] at h
      split at h
      · rename_i behind hclose
        obtain ⟨rfl, rfl⟩ := Prod.mk.inj (Except.ok.inj h)
        exact .emptyArray hclose
      · rename_i hopen
        cases hstart : skipSpace t with
        | nil => simp [hstart, items_nil] at h
        | cons c u =>
            -- The closing bracket was looked for before.
            have hc : c ≠ ']' := fun hc => hopen u (by rw [hstart, hc])
            rw [hstart] at h
            split at h
            · rename_i vs behind hitems
              obtain ⟨rfl, rfl⟩ := Prod.mk.inj (Except.ok.inj h)
              exact .array hstart hc hitems
            · contradiction

theorem value_object_eq_ok (h : value (fuel + 1) room (.char '{' :: t) = .ok (v, rest)) :
    ValueStep fuel room (.char '{' :: t) v rest := by
  cases room with
  | zero =>
      rw [value_tooDeep (Or.inr rfl)] at h
      contradiction
  | succ room =>
      rw [value, if_neg (by decide), if_neg (by decide), if_pos rfl] at h
      split at h
      · rename_i behind hclose
        obtain ⟨rfl, rfl⟩ := Prod.mk.inj (Except.ok.inj h)
        exact .emptyObject hclose
      · rename_i hopen
        cases hstart : skipSpace t with
        | nil => simp [hstart, fields_nil] at h
        | cons c u =>
            -- The closing brace was looked for before.
            have hc : c ≠ '}' := fun hc => hopen u (by rw [hstart, hc])
            rw [hstart] at h
            split at h
            · rename_i fs behind hfields
              obtain ⟨rfl, rfl⟩ := Prod.mk.inj (Except.ok.inj h)
              exact .object hstart hc hfields
            · contradiction

theorem value_succ_eq_ok_iff :
    value (fuel + 1) room t = .ok (v, rest) ↔ ValueStep fuel room t v rest := by
  constructor
  · intro h
    cases t with
    | nil =>
        rw [value_nil] at h
        contradiction
    | cons c u =>
        -- The first character tells what the value is.
        by_cases hquote : c = '"'
        · subst hquote
          rw [value_quote] at h
          split at h
          · rename_i s behind hstring
            obtain ⟨rfl, rfl⟩ := Prod.mk.inj (Except.ok.inj h)
            exact .string hstring
          · contradiction
        by_cases hbracket : c = '['
        · subst hbracket
          exact value_array_eq_ok h
        by_cases hbrace : c = '{'
        · subst hbrace
          exact value_object_eq_ok h
        · rw [value_scalar hquote hbracket hbrace] at h
          exact .scalar hquote hbracket hbrace h
  · intro h
    cases h with
    | string hstring => rw [value_quote, hstring]
    | emptyArray hclose =>
        rw [value, if_neg (by decide), if_pos rfl, hclose]
        rfl
    | array hstart hopen hitems =>
        rw [value, if_neg (by decide), if_pos rfl, hstart]
        split
        · rename_i hclose
          exact absurd (List.cons.inj hclose).1 hopen
        · rw [hitems]
    | emptyObject hclose =>
        rw [value, if_neg (by decide), if_neg (by decide), if_pos rfl, hclose]
        rfl
    | object hstart hopen hfields =>
        rw [value, if_neg (by decide), if_neg (by decide), if_pos rfl, hstart]
        split
        · rename_i hclose
          exact absurd (List.cons.inj hclose).1 hopen
        · rw [hfields]
    | scalar hquote hbracket hbrace hscalar => rw [value_scalar hquote hbracket hbrace, hscalar]

theorem items_succ_eq_ok_iff :
    items (fuel + 1) room t = .ok (vs, rest) ↔ ItemsStep fuel room t vs rest := by
  constructor
  · intro h
    rw [items] at h
    split at h
    · contradiction
    · rename_i v behind hvalue
      split at h
      · rename_i after hclose
        obtain ⟨rfl, rfl⟩ := Prod.mk.inj (Except.ok.inj h)
        exact .last hvalue hclose
      · rename_i u hcomma
        split at h
        · rename_i ws after hitems
          obtain ⟨rfl, rfl⟩ := Prod.mk.inj (Except.ok.inj h)
          exact .more hvalue hcomma hitems
        · contradiction
      · contradiction
  · intro h
    cases h with
    | last hvalue hclose => simp only [items, hvalue, hclose]
    | more hvalue hcomma hitems => simp only [items, hvalue, hcomma, hitems]

theorem fields_succ_eq_ok_iff :
    fields (fuel + 1) room t = .ok (fs, rest) ↔ FieldsStep fuel room t fs rest := by
  constructor
  · intro h
    unfold fields at h
    simp only at h
    split at h
    · split at h
      · contradiction
      · rename_i k behind hkey
        split at h
        · rename_i u hcolon
          split at h
          · contradiction
          · rename_i v after hvalue
            have hfield : FieldStep fuel room _ (k, v) after := .field hkey hcolon hvalue
            split at h
            · rename_i last hclose
              obtain ⟨rfl, rfl⟩ := Prod.mk.inj (Except.ok.inj h)
              exact .last hfield hclose
            · rename_i w hcomma
              split at h
              · rename_i gs last hfields
                obtain ⟨rfl, rfl⟩ := Prod.mk.inj (Except.ok.inj h)
                exact .more hfield hcomma hfields
              · contradiction
            · contradiction
        · contradiction
    · contradiction
  · intro h
    cases h with
    | last hfield hclose =>
        cases hfield with
        | field hkey hcolon hvalue => simp only [fields, hkey, hcolon, hvalue, hclose]
    | more hfield hcomma hfields =>
        cases hfield with
        | field hkey hcolon hvalue => simp only [fields, hkey, hcolon, hvalue, hcomma, hfields]

/-! ## What is read with some fuel -/

/-- Properties of the room, of a text, of what is read from it and of what is left, that hold of
all values, items and fields that are read with some fuel. -/
structure HoldsOfRead (fuel : Nat) (onValue : Nat → Text → Json → Text → Prop)
    (onItems : Nat → Text → List Json → Text → Prop)
    (onFields : Nat → Text → List (Text × Json) → Text → Prop) : Prop where
  value : ∀ {room : Nat} {t : Text} {v : Json} {rest : Text},
    Json.value fuel room t = .ok (v, rest) → onValue room t v rest
  items : ∀ {room : Nat} {t : Text} {vs : List Json} {rest : Text},
    Json.items fuel room t = .ok (vs, rest) → onItems room t vs rest
  fields : ∀ {room : Nat} {t : Text} {fs : List (Text × Json)} {rest : Text},
    Json.fields fuel room t = .ok (fs, rest) → onFields room t fs rest

/-- By induction on the fuel: what every step of the reader keeps holds of all that is read. -/
theorem HoldsOfRead.of_steps {onValue : Nat → Text → Json → Text → Prop}
    {onItems : Nat → Text → List Json → Text → Prop}
    {onFields : Nat → Text → List (Text × Json) → Text → Prop}
    (hvalue : ∀ {fuel room t v rest}, HoldsOfRead fuel onValue onItems onFields →
      ValueStep fuel room t v rest → onValue room t v rest)
    (hitems : ∀ {fuel room t vs rest}, HoldsOfRead fuel onValue onItems onFields →
      ItemsStep fuel room t vs rest → onItems room t vs rest)
    (hfields : ∀ {fuel room t fs rest}, HoldsOfRead fuel onValue onItems onFields →
      FieldsStep fuel room t fs rest → onFields room t fs rest)
    (fuel : Nat) : HoldsOfRead fuel onValue onItems onFields := by
  induction fuel with
  | zero =>
      refine ⟨?_, ?_, ?_⟩
      · intro room t v rest h
        rw [Json.value] at h
        contradiction
      · intro room t vs rest h
        rw [Json.items] at h
        contradiction
      · intro room t fs rest h
        rw [Json.fields] at h
        contradiction
  | succ fuel ih =>
      refine ⟨?_, ?_, ?_⟩
      · intro room t v rest h
        exact hvalue ih (value_succ_eq_ok_iff.mp h)
      · intro room t vs rest h
        exact hitems ih (items_succ_eq_ok_iff.mp h)
      · intro room t fs rest h
        exact hfields ih (fields_succ_eq_ok_iff.mp h)

/-! ## Refusals

A text is malformed in many ways.  Any other error is met at one place: at a bracket without
room behind it, in a part, or in a number. -/

variable {e : ReadError}

/-- Where a value meets its error. -/
inductive ValueRefused (fuel : Nat) : Nat → Text → ReadError → Prop
  | tooDeep {t : Text} {c : CodePoint} (hc : c = '[' ∨ c = '{') :
      ValueRefused fuel 0 (c :: t) .tooDeep
  | items {room : Nat} {t : Text} {e : ReadError} (hopen : ∀ u, skipSpace t ≠ .char ']' :: u)
      (hitems : items fuel room (skipSpace t) = .error e) :
      ValueRefused fuel (room + 1) (.char '[' :: t) e
  | fields {room : Nat} {t : Text} {e : ReadError} (hopen : ∀ u, skipSpace t ≠ .char '}' :: u)
      (hfields : fields fuel room (skipSpace t) = .error e) :
      ValueRefused fuel (room + 1) (.char '{' :: t) e
  | scalar {room : Nat} {t : Text} {c : CodePoint} {e : ReadError} (hquote : c ≠ '"')
      (hbracket : c ≠ '[') (hbrace : c ≠ '{') (hscalar : scalarValue (c :: t) = .error e) :
      ValueRefused fuel room (c :: t) e

/-- Where the items of an array meet their error. -/
inductive ItemsRefused (fuel room : Nat) : Text → ReadError → Prop
  | value {t : Text} {e : ReadError} (hvalue : value fuel room t = .error e) :
      ItemsRefused fuel room t e
  | items {t behind u : Text} {v : Json} {e : ReadError}
      (hvalue : value fuel room t = .ok (v, behind)) (hcomma : skipSpace behind = .char ',' :: u)
      (hitems : items fuel room (skipSpace u) = .error e) : ItemsRefused fuel room t e

/-- Where the fields of an object meet their error. -/
inductive FieldsRefused (fuel room : Nat) : Text → ReadError → Prop
  | value {t behind u k : Text} {e : ReadError} (hkey : string? t = some (k, behind))
      (hcolon : skipSpace behind = .char ':' :: u)
      (hvalue : value fuel room (skipSpace u) = .error e) :
      FieldsRefused fuel room (.char '"' :: t) e
  | fields {t behind u : Text} {f : Text × Json} {e : ReadError}
      (hfield : FieldStep fuel room t f behind) (hcomma : skipSpace behind = .char ',' :: u)
      (hfields : fields fuel room (skipSpace u) = .error e) : FieldsRefused fuel room t e

theorem value_array_eq_error (h : value (fuel + 1) room (.char '[' :: t) = .error e) :
    ValueRefused fuel room (.char '[' :: t) e := by
  cases room with
  | zero =>
      rw [value_tooDeep (Or.inl rfl)] at h
      rw [← Except.error.inj h]
      exact .tooDeep (Or.inl rfl)
  | succ room =>
      rw [value, if_neg (by decide), if_pos rfl] at h
      split at h
      · contradiction
      · rename_i hopen
        split at h
        · contradiction
        · rename_i hitems
          rw [← Except.error.inj h]
          exact .items hopen hitems

theorem value_object_eq_error (h : value (fuel + 1) room (.char '{' :: t) = .error e) :
    ValueRefused fuel room (.char '{' :: t) e := by
  cases room with
  | zero =>
      rw [value_tooDeep (Or.inr rfl)] at h
      rw [← Except.error.inj h]
      exact .tooDeep (Or.inr rfl)
  | succ room =>
      rw [value, if_neg (by decide), if_neg (by decide), if_pos rfl] at h
      split at h
      · contradiction
      · rename_i hopen
        split at h
        · contradiction
        · rename_i hfields
          rw [← Except.error.inj h]
          exact .fields hopen hfields

theorem value_succ_eq_error_iff (he : e ≠ .malformed) :
    value (fuel + 1) room t = .error e ↔ ValueRefused fuel room t e := by
  constructor
  · intro h
    cases t with
    | nil =>
        rw [value_nil] at h
        exact absurd (Except.error.inj h).symm he
    | cons c u =>
        by_cases hquote : c = '"'
        · subst hquote
          rw [value_quote] at h
          split at h
          · contradiction
          · exact absurd (Except.error.inj h).symm he
        by_cases hbracket : c = '['
        · subst hbracket
          exact value_array_eq_error h
        by_cases hbrace : c = '{'
        · subst hbrace
          exact value_object_eq_error h
        · rw [value_scalar hquote hbracket hbrace] at h
          exact .scalar hquote hbracket hbrace h
  · intro h
    cases h with
    | tooDeep hc => exact value_tooDeep hc
    | items hopen hitems =>
        rw [value, if_neg (by decide), if_pos rfl]
        split
        · rename_i u hclose
          exact absurd hclose (hopen u)
        · rw [hitems]
    | fields hopen hfields =>
        rw [value, if_neg (by decide), if_neg (by decide), if_pos rfl]
        split
        · rename_i u hclose
          exact absurd hclose (hopen u)
        · rw [hfields]
    | scalar hquote hbracket hbrace hscalar => rw [value_scalar hquote hbracket hbrace, hscalar]

theorem items_succ_eq_error_iff (he : e ≠ .malformed) :
    items (fuel + 1) room t = .error e ↔ ItemsRefused fuel room t e := by
  constructor
  · intro h
    rw [items] at h
    split at h
    · rename_i hvalue
      rw [← Except.error.inj h]
      exact .value hvalue
    · rename_i v behind hvalue
      split at h
      · contradiction
      · rename_i u hcomma
        split at h
        · contradiction
        · rename_i hitems
          rw [← Except.error.inj h]
          exact .items hvalue hcomma hitems
      · exact absurd (Except.error.inj h).symm he
  · intro h
    cases h with
    | value hvalue => simp only [items, hvalue]
    | items hvalue hcomma hitems => simp only [items, hvalue, hcomma, hitems]

theorem fields_succ_eq_error_iff (he : e ≠ .malformed) :
    fields (fuel + 1) room t = .error e ↔ FieldsRefused fuel room t e := by
  constructor
  · intro h
    unfold fields at h
    simp only at h
    split at h
    · split at h
      · exact absurd (Except.error.inj h).symm he
      · rename_i k behind hkey
        split at h
        · rename_i u hcolon
          split at h
          · rename_i hvalue
            rw [← Except.error.inj h]
            exact .value hkey hcolon hvalue
          · rename_i v after hvalue
            split at h
            · contradiction
            · rename_i more hcomma
              split at h
              · contradiction
              · rename_i hfields
                rw [← Except.error.inj h]
                exact .fields (.field hkey hcolon hvalue) hcomma hfields
            · exact absurd (Except.error.inj h).symm he
        · exact absurd (Except.error.inj h).symm he
    · exact absurd (Except.error.inj h).symm he
  · intro h
    cases h with
    | value hkey hcolon hvalue => simp only [fields, hkey, hcolon, hvalue]
    | fields hfield hcomma hfields =>
        cases hfield with
        | field hkey hcolon hvalue => simp only [fields, hkey, hcolon, hvalue, hcomma, hfields]

end Lifeline.Json
