import Lifeline.Proofs.Json.Numbers
import Lifeline.Proofs.Json.Steps
import Lifeline.Proofs.Json.Strings
import Lifeline.Proofs.TextMap

/-!
# Written values read back

A value is read from the beginning of what is written for it, whatever follows,
as long as what follows cannot continue a number.  The reader's fuel is never
short, since each step down into a value passes at least one character.

Covered are values whose objects have distinct keys, whose integers have no more
digits than the reader takes, which nest no deeper than it has room for, and whose
strings split no surrogate pair.
-/

namespace Lifeline.Json

variable {layout : Layout} {room : Nat} {t rest : Text} {c : CodePoint}

/-- A text holds nothing but white space. -/
def AllSpace (t : Text) : Prop :=
  ∀ c ∈ t, isSpace c = true

/-- Commas and colons stand with nothing but white space behind them. -/
structure Layout.Punctuated (layout : Layout) : Prop where
  comma_eq : ∃ spaces, layout.comma = .char ',' :: spaces ∧ AllSpace spaces
  colon_eq : ∃ spaces, layout.colon = .char ':' :: spaces ∧ AllSpace spaces

/-- A value of the form that is read when there is room for so many arrays and objects. -/
inductive Readable : Nat → Json → Prop
  | null {room : Nat} : Readable room .null
  | bool {room : Nat} (b : Bool) : Readable room (.bool b)
  | int {room : Nat} {n : Int} (hdigits : (Text.ofNat n.natAbs).length ≤ maxIntegerDigits) :
      Readable room (.int n)
  | real {room : Nat} (x : Binary64) : Readable room (.real x)
  | str {room : Nat} (t : Text) : Readable room (.str t)
  | arr {room : Nat} {items : List Json} (hitems : ∀ v ∈ items, Readable room v) :
      Readable (room + 1) (.arr items)
  | obj {room : Nat} {fields : List (Text × Json)} (hkeys : (fields.map Prod.fst).Nodup)
      (hfields : ∀ f ∈ fields, Readable room f.2) : Readable (room + 1) (.obj fields)

/-- More room does no harm. -/
theorem Readable.mono {room more : Nat} {v : Json} (h : Readable room v) (hle : room ≤ more) :
    Readable more v := by
  induction h generalizing more with
  | null => exact .null
  | bool b => exact .bool b
  | int hdigits => exact .int hdigits
  | real x => exact .real x
  | str t => exact .str t
  | arr hitems ih =>
      obtain ⟨more, rfl⟩ : ∃ n, more = n + 1 := ⟨more - 1, by omega⟩
      exact .arr fun v hv => ih v hv (by omega)
  | obj hkeys hfields ih =>
      obtain ⟨more, rfl⟩ : ∃ n, more = n + 1 := ⟨more - 1, by omega⟩
      exact .obj hkeys fun f hf => ih f hf (by omega)

/-- Every text in a value passes a test, the keys of its objects included. -/
inductive AllTexts (p : Text → Bool) : Json → Prop
  | null : AllTexts p .null
  | bool (b : Bool) : AllTexts p (.bool b)
  | int (n : Int) : AllTexts p (.int n)
  | real (x : Binary64) : AllTexts p (.real x)
  | str {t : Text} (ht : p t = true) : AllTexts p (.str t)
  | arr {items : List Json} (hitems : ∀ v ∈ items, AllTexts p v) : AllTexts p (.arr items)
  | obj {fields : List (Text × Json)} (hkeys : ∀ f ∈ fields, p f.1 = true)
      (hfields : ∀ f ∈ fields, AllTexts p f.2) : AllTexts p (.obj fields)

/-- A weaker test is passed as well. -/
theorem AllTexts.imp {p q : Text → Bool} {v : Json} (hpq : ∀ t, p t = true → q t = true)
    (h : AllTexts p v) : AllTexts q v := by
  induction h with
  | null => exact .null
  | bool b => exact .bool b
  | int n => exact .int n
  | real x => exact .real x
  | str ht => exact .str (hpq _ ht)
  | arr hitems ih => exact .arr ih
  | obj hkeys hfields ih => exact .obj (fun f hf => hpq f.1 (hkeys f hf)) ih

/-! ## White space -/

theorem skipSpace_append {spaces : Text} (hspaces : AllSpace spaces) :
    skipSpace (spaces ++ t) = skipSpace t := by
  unfold skipSpace
  exact List.dropWhile_append_of_pos hspaces

theorem skipSpace_cons (hc : isSpace c = false) : skipSpace (c :: t) = c :: t := by
  unfold skipSpace
  rw [List.dropWhile_cons_of_neg]
  simp [hc]

theorem allSpace_newLine {depth : Nat} : AllSpace (layout.newLine depth) := by
  unfold AllSpace Layout.newLine
  split
  · simp only [List.mem_cons, List.mem_replicate]
    rintro c (rfl | ⟨-, rfl⟩)
    · rfl
    · rfl
  · simp

theorem closed_cons (hc : isSpace c = true ∨ c = ',' ∨ c = ']' ∨ c = '}') :
    Closed (c :: rest) := by
  intro d hd
  obtain rfl : c = d := by simpa using hd
  rcases hc with hspace | rfl | rfl | rfl
  · simp only [isSpace, Bool.or_eq_true, beq_iff_eq] at hspace
    rcases hspace with ((rfl | rfl) | rfl) | rfl <;> decide
  · decide
  · decide
  · decide

/-- White space and a closing character do not continue a number. -/
theorem closed_append_cons {spaces : Text} (hspaces : AllSpace spaces)
    (hc : c = ',' ∨ c = ']' ∨ c = '}') : Closed (spaces ++ c :: rest) := by
  cases spaces with
  | nil => exact closed_cons (Or.inr hc)
  | cons b spaces => exact closed_cons (Or.inl (hspaces b List.mem_cons_self))

/-! ## Values -/

/-- A value is read from what is written for it, whatever follows. -/
def ReadsBack (layout : Layout) (room : Nat) (v : Json) : Prop :=
  ∀ (depth fuel : Nat) (rest : Text), Closed rest → (writeAt layout depth v).length ≤ fuel →
    value fuel room (writeAt layout depth v ++ rest) = .ok (v, rest)

/-- What is written for a value begins with neither white space nor a closing
bracket. -/
theorem exists_writeAt_eq_cons (layout : Layout) (v : Json) (depth : Nat) :
    ∃ c t, writeAt layout depth v = c :: t ∧ isSpace c = false ∧ c ≠ ']' := by
  cases v with
  | null => exact ⟨_, _, rfl, by decide, by decide⟩
  | bool b =>
      cases b with
      | true => exact ⟨_, _, rfl, by decide, by decide⟩
      | false => exact ⟨_, _, rfl, by decide, by decide⟩
  | int n =>
      obtain ⟨c, t, hcons, hc⟩ := exists_ofInt_eq_cons n
      exact ⟨c, t, hcons, hc.ne.1, hc.ne.2.1⟩
  | real x =>
      obtain ⟨c, t, hcons, hc⟩ := exists_writeReal_eq_cons x
      exact ⟨c, t, hcons, hc.ne.1, hc.ne.2.1⟩
  | str t => exact ⟨_, _, rfl, by decide, by decide⟩
  | arr items =>
      cases items with
      | nil => exact ⟨_, _, rfl, by decide, by decide⟩
      | cons v items => exact ⟨_, _, rfl, by decide, by decide⟩
  | obj fields =>
      cases fields with
      | nil => exact ⟨_, _, rfl, by decide, by decide⟩
      | cons f fields => exact ⟨_, _, rfl, by decide, by decide⟩

/-- White space in front of a closing character is passed over. -/
theorem skipSpace_append_cons {spaces : Text} (hspaces : AllSpace spaces)
    (hc : isSpace c = false) : skipSpace (spaces ++ c :: t) = c :: t := by
  rw [skipSpace_append hspaces, skipSpace_cons hc]

/-- White space in front of a written value is passed over. -/
theorem skipSpace_append_writeAt {v : Json} {spaces : Text} {depth : Nat}
    (hspaces : AllSpace spaces) :
    skipSpace (spaces ++ (writeAt layout depth v ++ rest)) = writeAt layout depth v ++ rest := by
  obtain ⟨c, t, hcons, hc, -⟩ := exists_writeAt_eq_cons layout v depth
  rw [hcons, List.cons_append, skipSpace_append_cons hspaces hc]

/-! ### Arrays -/

theorem exists_writeItems_eq_append (layout : Layout) (depth : Nat) (v : Json) (vs : List Json) :
    ∃ more, writeItems layout depth (v :: vs) = writeAt layout depth v ++ more := by
  cases vs with
  | nil => exact ⟨[], by simp [writeItems]⟩
  | cons next vs => exact ⟨_, by rw [writeItems, List.append_assoc, List.append_assoc]⟩

theorem skipSpace_append_writeItems {v : Json} {vs : List Json} {spaces : Text} {depth : Nat}
    (hspaces : AllSpace spaces) :
    skipSpace (spaces ++ (writeItems layout depth (v :: vs) ++ rest)) =
      writeItems layout depth (v :: vs) ++ rest := by
  obtain ⟨more, hmore⟩ := exists_writeItems_eq_append layout depth v vs
  rw [hmore, List.append_assoc, skipSpace_append_writeAt hspaces]

/-- The items of an array are read up to its closing bracket. -/
theorem items_writeItems (hlayout : layout.Punctuated) {depth fuel : Nat} {spaces : Text}
    {vs : List Json} (hne : vs ≠ [])
    (hread : ∀ v ∈ vs, ReadsBack layout room v) (hspaces : AllSpace spaces)
    (hfuel : (writeItems layout depth vs).length < fuel) :
    items fuel room (writeItems layout depth vs ++ (spaces ++ .char ']' :: rest)) =
      .ok (vs, rest) := by
  obtain ⟨blanks, hcomma, hblanks⟩ := hlayout.comma_eq
  induction vs generalizing fuel with
  | nil => contradiction
  | cons v vs ih =>
      -- One unit of fuel is spent on each item, and each item has a character at least.
      obtain ⟨fuel, rfl⟩ : ∃ n, fuel = n + 1 := ⟨fuel - 1, by omega⟩
      have hv := hread v List.mem_cons_self
      cases vs with
      | nil =>
          simp only [writeItems] at hfuel ⊢
          have hvalue := hv depth fuel (spaces ++ .char ']' :: rest)
            (closed_append_cons hspaces (Or.inr (Or.inl rfl))) (by omega)
          have hclosing : skipSpace (spaces ++ .char ']' :: rest) = .char ']' :: rest :=
            skipSpace_append_cons hspaces rfl
          simp only [items, hvalue, hclosing]
      | cons next vs =>
          simp only [writeItems, hcomma, List.length_append, List.length_cons] at hfuel
          have hvalue : ∀ more, value fuel room (writeAt layout depth v ++ .char ',' :: more) =
              .ok (v, .char ',' :: more) :=
            fun more => hv depth fuel (.char ',' :: more) (closed_cons (Or.inr (Or.inl rfl)))
              (by omega)
          have hseparator : ∀ more, skipSpace (.char ',' :: more) = .char ',' :: more :=
            fun more => skipSpace_cons rfl
          have hmore : items fuel room (writeItems layout depth (next :: vs) ++
              (spaces ++ .char ']' :: rest)) = .ok (next :: vs, rest) :=
            ih (by simp) (fun w hw => hread w (List.mem_cons_of_mem v hw)) (by omega)
          simp only [writeItems, hcomma, List.append_assoc, List.cons_append, items, hvalue,
            hseparator, skipSpace_append hblanks]
          rw [skipSpace_append_writeItems allSpace_newLine]
          simp only [hmore]

/-! ### Objects -/

theorem exists_writeFields_eq_cons (layout : Layout) (depth : Nat) (f : Text × Json)
    (fs : List (Text × Json)) : ∃ more, writeFields layout depth (f :: fs) = .char '"' :: more := by
  cases fs with
  | nil => exact ⟨_, rfl⟩
  | cons next fs => exact ⟨_, rfl⟩

theorem skipSpace_append_writeFields {f : Text × Json} {fs : List (Text × Json)} {spaces : Text}
    {depth : Nat} (hspaces : AllSpace spaces) :
    skipSpace (spaces ++ (writeFields layout depth (f :: fs) ++ rest)) =
      writeFields layout depth (f :: fs) ++ rest := by
  obtain ⟨more, hmore⟩ := exists_writeFields_eq_cons layout depth f fs
  rw [hmore, List.cons_append, skipSpace_append_cons hspaces rfl]

/-- The fields of an object are read up to its closing brace. -/
theorem fields_writeFields (hlayout : layout.Punctuated) {depth fuel : Nat} {spaces : Text}
    {fs : List (Text × Json)} (hne : fs ≠ []) (hunsplit : ∀ f ∈ fs, isUnsplit f.1 = true)
    (hread : ∀ f ∈ fs, ReadsBack layout room f.2) (hspaces : AllSpace spaces)
    (hfuel : (writeFields layout depth fs).length < fuel) :
    fields fuel room (writeFields layout depth fs ++ (spaces ++ .char '}' :: rest)) =
      .ok (fs, rest) := by
  obtain ⟨blanks, hcomma, hblanks⟩ := hlayout.comma_eq
  obtain ⟨gap, hcolon, hgap⟩ := hlayout.colon_eq
  have hmiddle : ∀ more, skipSpace (.char ':' :: more) = .char ':' :: more :=
    fun more => skipSpace_cons rfl
  -- By induction on the fields: the last one is followed by the brace, any other by a comma.
  induction fs generalizing fuel with
  | nil => contradiction
  | cons f fs ih =>
      obtain ⟨fuel, rfl⟩ : ∃ n, fuel = n + 1 := ⟨fuel - 1, by omega⟩
      obtain ⟨k, v⟩ := f
      have hvread : ReadsBack layout room v := hread (k, v) List.mem_cons_self
      have hkey : ∀ more, string? (k.flatMap (stringChar layout.ascii) ++ .char '"' :: more) =
          some (k, more) :=
        string?_flatMap_stringChar layout.ascii (hunsplit (k, v) List.mem_cons_self)
      cases fs with
      | nil =>
          simp only [writeFields, writeString, hcolon, List.length_append, List.length_cons]
            at hfuel
          have hvalue := hvread depth fuel (spaces ++ .char '}' :: rest)
            (closed_append_cons hspaces (Or.inr (Or.inr rfl))) (by omega)
          have hclosing : skipSpace (spaces ++ .char '}' :: rest) = .char '}' :: rest :=
            skipSpace_append_cons hspaces rfl
          simp only [writeFields, writeString, hcolon, List.append_assoc, List.cons_append,
            List.nil_append, fields, hkey, hmiddle]
          rw [skipSpace_append_writeAt hgap]
          simp only [hvalue, hclosing]
      | cons next fs =>
          simp only [writeFields, writeString, hcolon, hcomma, List.length_append,
            List.length_cons] at hfuel
          have hvalue : ∀ more, value fuel room (writeAt layout depth v ++ .char ',' :: more) =
              .ok (v, .char ',' :: more) :=
            fun more => hvread depth fuel (.char ',' :: more) (closed_cons (Or.inr (Or.inl rfl)))
              (by omega)
          have hseparator : ∀ more, skipSpace (.char ',' :: more) = .char ',' :: more :=
            fun more => skipSpace_cons rfl
          have hmore : fields fuel room (writeFields layout depth (next :: fs) ++
              (spaces ++ .char '}' :: rest)) = .ok (next :: fs, rest) :=
            ih (by simp) (fun f hf => hunsplit f (List.mem_cons_of_mem _ hf))
              (fun f hf => hread f (List.mem_cons_of_mem _ hf)) (by omega)
          simp only [writeFields, writeString, hcolon, hcomma, List.append_assoc,
            List.cons_append, List.nil_append, fields, hkey, hmiddle]
          rw [skipSpace_append_writeAt hgap]
          simp only [hvalue, hseparator, skipSpace_append hblanks]
          rw [skipSpace_append_writeFields allSpace_newLine]
          simp only [hmore]

/-! ### All values -/

theorem exists_fuel_eq_succ {v : Json} {depth fuel : Nat}
    (hfuel : (writeAt layout depth v).length ≤ fuel) : ∃ n, fuel = n + 1 := by
  obtain ⟨c, t, hcons, -, -⟩ := exists_writeAt_eq_cons layout v depth
  rw [hcons, List.length_cons] at hfuel
  exact ⟨fuel - 1, by omega⟩

theorem value_eq_scalarValue {fuel : Nat} (hc : IsNumberStart c) :
    value (fuel + 1) room (c :: t) = scalarValue (c :: t) := by
  obtain ⟨-, -, hquote, hbracket, hbrace⟩ := hc.ne
  exact value_scalar hquote hbracket hbrace

theorem readsBack_int {n : Int} (hdigits : (Text.ofNat n.natAbs).length ≤ maxIntegerDigits) :
    ReadsBack layout room (.int n) := by
  intro depth fuel rest hrest hfuel
  obtain ⟨fuel, rfl⟩ := exists_fuel_eq_succ hfuel
  have hread := scalarValue_ofInt hdigits hrest
  obtain ⟨c, t, hcons, hc⟩ := exists_ofInt_eq_cons n
  show value (fuel + 1) room (Text.ofInt n ++ rest) = _
  rw [hcons] at hread ⊢
  rw [List.cons_append, value_eq_scalarValue hc]
  exact hread

theorem readsBack_real (x : Binary64) : ReadsBack layout room (.real x) := by
  intro depth fuel rest hrest hfuel
  obtain ⟨fuel, rfl⟩ := exists_fuel_eq_succ hfuel
  have hread := scalarValue_writeReal x hrest
  obtain ⟨c, t, hcons, hc⟩ := exists_writeReal_eq_cons x
  show value (fuel + 1) room (writeReal x ++ rest) = _
  rw [hcons] at hread ⊢
  rw [List.cons_append, value_eq_scalarValue hc]
  exact hread

theorem readsBack_arr (hlayout : layout.Punctuated) {vs : List Json}
    (hread : ∀ v ∈ vs, ReadsBack layout room v) :
    ReadsBack layout (room + 1) (.arr vs) := by
  intro depth fuel rest hrest hfuel
  obtain ⟨fuel, rfl⟩ := exists_fuel_eq_succ hfuel
  cases vs with
  | nil => rfl
  | cons v vs =>
      simp only [writeAt, List.length_cons, List.length_append] at hfuel
      have hitems : items fuel room (writeItems layout (depth + 1) (v :: vs) ++
          (layout.newLine depth ++ .char ']' :: rest)) = .ok (v :: vs, rest) :=
        items_writeItems hlayout (by simp) hread allSpace_newLine (by omega)
      simp only [writeAt, List.cons_append, List.append_assoc, List.nil_append]
      rw [value, if_neg (by decide), if_pos rfl, skipSpace_append_writeItems allSpace_newLine]
      split
      · rename_i behind hclosing
        -- no item begins with the closing bracket
        obtain ⟨more, hmore⟩ := exists_writeItems_eq_append layout (depth + 1) v vs
        obtain ⟨c, t, hcons, -, hc⟩ := exists_writeAt_eq_cons layout v (depth + 1)
        rw [hmore, hcons] at hclosing
        exact absurd (List.cons.inj hclosing).1 hc
      · rw [hitems]

theorem readsBack_obj (hlayout : layout.Punctuated) {fs : List (Text × Json)}
    (hkeys : (fs.map Prod.fst).Nodup) (hunsplit : ∀ f ∈ fs, isUnsplit f.1 = true)
    (hread : ∀ f ∈ fs, ReadsBack layout room f.2) : ReadsBack layout (room + 1) (.obj fs) := by
  intro depth fuel rest hrest hfuel
  obtain ⟨fuel, rfl⟩ := exists_fuel_eq_succ hfuel
  cases fs with
  | nil => rfl
  | cons f fs =>
      simp only [writeAt, List.length_cons, List.length_append] at hfuel
      have hfields : fields fuel room (writeFields layout (depth + 1) (f :: fs) ++
          (layout.newLine depth ++ .char '}' :: rest)) = .ok (f :: fs, rest) :=
        fields_writeFields hlayout (by simp) hunsplit hread allSpace_newLine (by omega)
      simp only [writeAt, List.cons_append, List.append_assoc, List.nil_append]
      rw [value, if_neg (by decide), if_neg (by decide), if_pos rfl,
        skipSpace_append_writeFields allSpace_newLine]
      split
      · rename_i behind hclosing
        -- every key begins with a quotation mark
        obtain ⟨more, hmore⟩ := exists_writeFields_eq_cons layout (depth + 1) f fs
        rw [hmore] at hclosing
        exact absurd (List.cons.inj hclosing).1 (by decide)
      · rw [hfields]
        simp only [lastEntries_of_nodup hkeys]

/-- Every readable value that splits no surrogate pair is read back, by induction on the value. -/
theorem readsBack_of_readable (hlayout : layout.Punctuated) {v : Json} (hv : Readable room v)
    (hunsplit : AllTexts isUnsplit v) : ReadsBack layout room v := by
  induction hv with
  | null =>
      intro depth fuel rest hrest hfuel
      obtain ⟨fuel, rfl⟩ := exists_fuel_eq_succ hfuel
      rfl
  | bool b =>
      intro depth fuel rest hrest hfuel
      obtain ⟨fuel, rfl⟩ := exists_fuel_eq_succ hfuel
      cases b with
      | true => rfl
      | false => rfl
  | int hdigits => exact readsBack_int hdigits
  | real x => exact readsBack_real x
  | str t =>
      intro depth fuel rest hrest hfuel
      obtain ⟨fuel, rfl⟩ := exists_fuel_eq_succ hfuel
      cases hunsplit with
      | str ht =>
          show value (fuel + 1) room
            (.char '"' :: (t.flatMap (stringChar layout.ascii) ++ [.char '"'] ++ rest)) = _
          rw [List.append_assoc, List.singleton_append, value_quote,
            string?_flatMap_stringChar layout.ascii ht]
  | arr hitems ih =>
      cases hunsplit with
      | arr hunsplit => exact readsBack_arr hlayout fun v hv => ih v hv (hunsplit v hv)
  | obj hkeys hfields ih =>
      cases hunsplit with
      | obj hnames hunsplit =>
          exact readsBack_obj hlayout hkeys hnames fun f hf => ih f hf (hunsplit f hf)

/-- What is written for a readable value that splits no surrogate pair is read as this value. -/
theorem parse_write [Stack] (hlayout : layout.Punctuated) {v : Json}
    (hv : Readable Stack.room v) (hunsplit : AllTexts isUnsplit v) :
    parse (write layout v) = .ok v := by
  obtain ⟨c, t, hcons, hc, -⟩ := exists_writeAt_eq_cons layout v 0
  have hread := readsBack_of_readable hlayout hv hunsplit 0
      (2 * (write layout v).length + 2) [] closed_nil
    (by unfold write; omega)
  -- Nothing is written in front of a value, and nothing behind it.
  have hstart : skipSpace (write layout v) = write layout v := by
    unfold write
    rw [hcons, skipSpace_cons hc]
  rw [List.append_nil] at hread
  unfold parse
  rw [hstart]
  unfold write at hread ⊢
  rw [hread]
  rfl

theorem punctuated_dense : Layout.dense.Punctuated where
  comma_eq := ⟨[], rfl, fun _ h => absurd h List.not_mem_nil⟩
  colon_eq := ⟨[], rfl, fun _ h => absurd h List.not_mem_nil⟩

theorem punctuated_denseAscii : Layout.denseAscii.Punctuated where
  comma_eq := punctuated_dense.comma_eq
  colon_eq := punctuated_dense.colon_eq

theorem punctuated_page : Layout.page.Punctuated where
  comma_eq := ⟨[], rfl, fun _ h => absurd h List.not_mem_nil⟩
  colon_eq := ⟨[' '], rfl, fun c hc => by rw [List.mem_singleton.mp hc]; rfl⟩

end Lifeline.Json
