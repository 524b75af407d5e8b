import Lifeline.Proofs.Json.Suffixes
import Mathlib.Data.List.Forall2

/-!
# Surrogate pairs are read as one

A text of characters can spell halves of surrogate pairs by number, and two halves
that meet are joined.  So no text in a value that is read from characters splits a
pair, and the value is read back from what is written for it.  In ASCII a text that
splits pairs is written as the text where they are joined (`joinPairs`).
-/

namespace Lifeline.Json

variable {fuel room n : Nat} {t rest : Text} {v : Json} {negative : Bool} {us : List StringUnit}
  {fs : List (Text × Json)} {f : Text × Json} {vs : List Json}

/-! ## Parts of a text -/

theorem isHighSurrogate_ofNat (n : Nat) :
    isHighSurrogate (CodePoint.ofNat n).toNat = isHighSurrogate n := by
  by_cases hn : n < 0x110000
  · rw [CodePoint.toNat_ofNat hn]
  · have hbeyond : isHighSurrogate n = false := by
      simp only [isHighSurrogate, Bool.and_eq_false_iff, decide_eq_false_iff_not]
      omega
    rw [CodePoint.ofNat_of_le (by omega), hbeyond]
    rfl

theorem isLowSurrogate_ofNat (n : Nat) :
    isLowSurrogate (CodePoint.ofNat n).toNat = isLowSurrogate n := by
  by_cases hn : n < 0x110000
  · rw [CodePoint.toNat_ofNat hn]
  · have hbeyond : isLowSurrogate n = false := by
      simp only [isLowSurrogate, Bool.and_eq_false_iff, decide_eq_false_iff_not]
      omega
    rw [CodePoint.ofNat_of_le (by omega), hbeyond]
    rfl

/-- A joined pair lies beyond the halves of pairs. -/
theorem not_surrogate_joinSurrogates (high low : Nat) :
    isHighSurrogate (joinSurrogates high low) = false ∧
      isLowSurrogate (joinSurrogates high low) = false := by
  have hbeyond : 0x10000 ≤ joinSurrogates high low := by
    unfold joinSurrogates
    omega
  simp only [isHighSurrogate, isLowSurrogate, Bool.and_eq_false_iff, decide_eq_false_iff_not]
  omega

/-- The units are joined to a text that splits no pair, and that begins with a second half only
where the units do. -/
def JoinedWell (us : List StringUnit) : Prop :=
  isUnsplit (joinUnits us) = true ∧ (headIsLow (joinUnits us) = true → startsLow us = true)

/-- A number that is not joined to the next unit is the first half of no pair. -/
theorem JoinedWell.code (h : JoinedWell us)
    (hpair : (isHighSurrogate n && startsLow us) = false) : JoinedWell (.code n :: us) := by
  obtain ⟨hunsplit, hhead⟩ := h
  have hapart : (isHighSurrogate n && headIsLow (joinUnits us)) = false := by
    rw [Bool.and_eq_false_iff] at hpair ⊢
    refine hpair.imp id fun hstart => ?_
    rw [← Bool.not_eq_true] at hstart ⊢
    exact fun hlow => hstart (hhead hlow)
  unfold JoinedWell
  rw [joinUnits_code hpair, isUnsplit_cons_iff, isHighSurrogate_ofNat, headIsLow_cons,
    isLowSurrogate_ofNat]
  exact ⟨⟨hapart, hunsplit⟩, id⟩

/-- When the halves of pairs among the units are all numbers, the joined text splits no pair. -/
theorem joinedWell_of_isScalar (h : ∀ c, .char c ∈ us → c.isScalar = true) : JoinedWell us := by
  induction us using joinUnits.induct with
  | case1 => exact ⟨rfl, id⟩
  | case2 c rest ih =>
      obtain ⟨hhigh, hlow⟩ := not_surrogate_of_isScalar (h c List.mem_cons_self)
      obtain ⟨hrest, -⟩ := ih fun d hd => h d (List.mem_cons_of_mem _ hd)
      unfold JoinedWell
      rw [joinUnits, isUnsplit_cons_iff, headIsLow_cons, hhigh, hlow, Bool.false_and]
      exact ⟨⟨rfl, hrest⟩, fun hhead => absurd hhead Bool.false_ne_true⟩
  | case3 n m rest hpair ih =>
      obtain ⟨hn, hm⟩ := Bool.and_eq_true_iff.mp hpair
      obtain ⟨hhigh, hlow⟩ := not_surrogate_joinSurrogates n m
      obtain ⟨hrest, -⟩ := ih fun d hd => h d (by simp [hd])
      unfold JoinedWell
      rw [joinUnits_pair hn hm, isUnsplit_cons_iff, headIsLow_cons, isHighSurrogate_ofNat,
        isLowSurrogate_ofNat, hhigh, hlow, Bool.false_and]
      exact ⟨⟨rfl, hrest⟩, fun hhead => absurd hhead Bool.false_ne_true⟩
  | case4 n m rest hpair ih =>
      exact (ih fun d hd => h d (List.mem_cons_of_mem _ hd)).code (Bool.not_eq_true _ ▸ hpair)
  | case5 n rest hcode ih =>
      -- What follows is no number, so nothing is joined to this half.
      have hstart : startsLow rest = false := by
        cases rest with
        | nil => rfl
        | cons u rest =>
            cases u with
            | char c => rfl
            | code m => exact absurd rfl (hcode m rest)
      refine (ih fun d hd => h d (List.mem_cons_of_mem _ hd)).code ?_
      rw [hstart, Bool.and_false]

/-! ## Joined pairs -/

/-- A text with one character in place of each split pair. -/
def joinPairs (t : Text) : Text :=
  joinUnits (t.map fun c => .code c.toNat)

theorem isUnsplit_joinPairs (t : Text) : isUnsplit (joinPairs t) = true := by
  refine (joinedWell_of_isScalar fun c hc => ?_).1
  obtain ⟨d, -, hd⟩ := List.mem_map.mp hc
  contradiction

theorem joinPairs_cons {c : CodePoint} (h : (isHighSurrogate c.toNat && headIsLow t) = false) :
    joinPairs (c :: t) = c :: joinPairs t := by
  have hstart : startsLow (t.map fun d => .code d.toNat) = headIsLow t := by
    cases t <;> rfl
  rw [joinPairs, List.map_cons, joinUnits_code (by rw [hstart, h]), CodePoint.ofNat_toNat]
  rfl

theorem joinPairs_pair {high low : CodePoint} (hhigh : isHighSurrogate high.toNat = true)
    (hlow : isLowSurrogate low.toNat = true) (t : Text) :
    joinPairs (high :: low :: t) =
      .ofNat (joinSurrogates high.toNat low.toNat) :: joinPairs t :=
  joinUnits_pair hhigh hlow _

theorem joinPairs_eq_self (ht : isUnsplit t = true) : joinPairs t = t := by
  induction t with
  | nil => rfl
  | cons c t ih =>
      obtain ⟨hmeet, htail⟩ := isUnsplit_cons_iff.mp ht
      rw [joinPairs_cons hmeet, ih htail]

theorem joinPairs_append {back : Text} (hback : back.isScalar = true) :
    (t : Text) → joinPairs (t ++ back) = joinPairs t ++ back
  | [] => joinPairs_eq_self (isUnsplit_of_isScalar hback)
  | [c] => by
      -- A half at the end of the text meets a character.
      have hhead : headIsLow back = false := by
        cases back with
        | nil => rfl
        | cons d back =>
            rw [Text.isScalar_cons, Bool.and_eq_true] at hback
            exact (not_surrogate_of_isScalar hback.1).2
      rw [List.singleton_append, joinPairs_cons (by rw [hhead, Bool.and_false]),
        joinPairs_eq_self (isUnsplit_of_isScalar hback), joinPairs_cons (Bool.and_false _)]
      rfl
  | c :: d :: t => by
      by_cases hpair : (isHighSurrogate c.toNat && isLowSurrogate d.toNat) = true
      · obtain ⟨hhigh, hlow⟩ := Bool.and_eq_true_iff.mp hpair
        rw [List.cons_append, List.cons_append, joinPairs_pair hhigh hlow,
          joinPairs_pair hhigh hlow, joinPairs_append hback t, List.cons_append]
      · have hcons : joinPairs (c :: d :: t) = c :: joinPairs (d :: t) :=
          joinPairs_cons (eq_false_of_ne_true hpair)
        rw [List.cons_append, List.cons_append, joinPairs_cons (eq_false_of_ne_true hpair),
          ← List.cons_append, joinPairs_append hback (d :: t), hcons, List.cons_append]

/-- What is not ASCII is escaped. -/
theorem stringChar_of_lt {c : CodePoint} (hc : 126 < c.toNat) :
    stringChar true c = escapeChar c := by
  have hne : ∀ d : Char, d.toNat ≤ 126 → c ≠ .char d := by
    rintro d hd rfl
    exact absurd hc (Nat.not_lt.mpr hd)
  unfold stringChar
  rw [if_neg (hne '"' (by decide)), if_neg (hne '\\' (by decide)), if_neg (hne '\n' (by decide)),
    if_neg (hne '\r' (by decide)), if_neg (hne '\t' (by decide)), if_neg (hne '\x08' (by decide)),
    if_neg (hne '\x0c' (by decide)), if_neg (by omega), if_pos (by simpa using hc)]

/-- A character beyond the 16 bits is escaped as its pair is. -/
theorem escapeChar_joinSurrogates {high low : Nat} (hhigh : isHighSurrogate high = true)
    (hlow : isLowSurrogate low = true) :
    escapeChar (.ofNat (joinSurrogates high low)) = escapeCode high ++ escapeCode low := by
  simp only [isHighSurrogate, isLowSurrogate, Bool.and_eq_true, decide_eq_true_eq] at hhigh hlow
  have hnumber : (CodePoint.ofNat (joinSurrogates high low)).toNat = joinSurrogates high low :=
    CodePoint.toNat_ofNat (by unfold joinSurrogates; omega)
  have hbeyond : ¬ joinSurrogates high low < 0x10000 := by
    unfold joinSurrogates
    omega
  have hfirst : 0xD800 + (joinSurrogates high low - 0x10000) / 1024 = high := by
    unfold joinSurrogates
    omega
  have hsecond : 0xDC00 + (joinSurrogates high low - 0x10000) % 1024 = low := by
    unfold joinSurrogates
    omega
  simp only [escapeChar, hnumber, if_neg hbeyond, hfirst, hsecond]

theorem stringChar_of_surrogate {c : CodePoint}
    (hc : isHighSurrogate c.toNat = true ∨ isLowSurrogate c.toNat = true) :
    stringChar true c = escapeCode c.toNat := by
  simp only [isHighSurrogate, isLowSurrogate, Bool.and_eq_true, decide_eq_true_eq] at hc
  rw [stringChar_of_lt (by omega)]
  exact if_pos (by omega)

/-- In ASCII a split pair is written as its character is. -/
theorem flatMap_joinPairs :
    (t : Text) → (joinPairs t).flatMap (stringChar true) = t.flatMap (stringChar true)
  | [] => rfl
  | [c] => by rw [joinPairs_cons (Bool.and_false _)]; rfl
  | c :: d :: t => by
      by_cases hpair : (isHighSurrogate c.toNat && isLowSurrogate d.toNat) = true
      · obtain ⟨hhigh, hlow⟩ := Bool.and_eq_true_iff.mp hpair
        -- The character of a pair lies beyond U+FFFF, so its escapes are those of the two halves.
        have hlarge : 126 < (CodePoint.ofNat (joinSurrogates c.toNat d.toNat)).toNat := by
          rw [CodePoint.toNat_ofNat]
          all_goals
            simp only [isHighSurrogate, isLowSurrogate, Bool.and_eq_true, decide_eq_true_eq]
              at hhigh hlow
            unfold joinSurrogates
            omega
        simp only [joinPairs_pair hhigh hlow, List.flatMap_cons, flatMap_joinPairs t,
          stringChar_of_lt hlarge, escapeChar_joinSurrogates hhigh hlow,
          stringChar_of_surrogate (Or.inl hhigh), stringChar_of_surrogate (Or.inr hlow),
          List.append_assoc]
      · rw [joinPairs_cons (eq_false_of_ne_true hpair), List.flatMap_cons,
          flatMap_joinPairs (d :: t), ← List.flatMap_cons]

/-- Two values are written as the same text. -/
def WrittenAlike (layout : Layout) (v w : Json) : Prop :=
  ∀ depth, writeAt layout depth v = writeAt layout depth w

theorem writtenAlike_joinPairs {layout : Layout} (hascii : layout.ascii = true) (t : Text) :
    WrittenAlike layout (.str (joinPairs t)) (.str t) := by
  intro depth
  rw [writeAt, writeAt, hascii, writeString, flatMap_joinPairs, writeString]

theorem writeFields_congr {layout : Layout} {gs : List (Text × Json)}
    (h : List.Forall₂ (fun f g => f.1 = g.1 ∧ WrittenAlike layout f.2 g.2) fs gs) (depth : Nat) :
    writeFields layout depth fs = writeFields layout depth gs := by
  induction h with
  | nil => rfl
  | @cons f g fs gs hfirst hrest ih =>
      obtain ⟨k, v⟩ := f
      obtain ⟨k', w⟩ := g
      obtain ⟨rfl, hvalue⟩ : k = k' ∧ WrittenAlike layout v w := hfirst
      cases hrest with
      | nil => rw [writeFields, writeFields, hvalue depth]
      | cons hnext hrest => rw [writeFields, writeFields, hvalue depth, ih]

theorem writtenAlike_obj {layout : Layout} {gs : List (Text × Json)}
    (h : List.Forall₂ (fun f g => f.1 = g.1 ∧ WrittenAlike layout f.2 g.2) fs gs) :
    WrittenAlike layout (.obj fs) (.obj gs) := by
  intro depth
  have hfields := writeFields_congr h (depth + 1)
  cases h with
  | nil => rfl
  | cons hfirst hrest => rw [writeAt, writeAt, hfields]

/-! ## Strings -/

theorem isScalar_of_escape? {e c : CodePoint} (h : escape? e = some c) : c.isScalar = true := by
  unfold escape? at h
  split at h
  · rename_i hself
    rw [← Option.some.inj h]
    rcases hself with rfl | rfl | rfl <;> rfl
  repeat'
    split at h
    · rw [← Option.some.inj h]
      rfl
  contradiction

/-- The characters of a string are those of the text, and those that letters stand for. -/
theorem ReadsUnits.isScalar (h : ReadsUnits t us rest) (ht : t.isScalar = true) :
    ∀ c, .char c ∈ us → c.isScalar = true := by
  induction h with
  | quote rest => exact fun c hc => absurd hc List.not_mem_nil
  | code hnumber hread ih =>
      simp only [Text.isScalar_cons, Bool.and_eq_true] at ht
      exact fun e he => ih ht.2.2.2.2.2.2 e (by simpa using he)
  | letter hescape hread ih =>
      simp only [Text.isScalar_cons, Bool.and_eq_true] at ht
      intro c hc
      rcases List.mem_cons.mp hc with hhead | htail
      · rw [StringUnit.char.inj hhead]
        exact isScalar_of_escape? hescape
      · exact ih ht.2.2 c htail
  | plain hquote hplain hread ih =>
      rw [Text.isScalar_cons, Bool.and_eq_true] at ht
      intro d hd
      rcases List.mem_cons.mp hd with hhead | htail
      · rw [StringUnit.char.inj hhead]
        exact ht.1
      · exact ih ht.2 d htail

/-- A string that is read from characters splits no pair. -/
theorem isUnsplit_of_string? {s : Text} (ht : t.isScalar = true) (h : string? t = some (s, rest)) :
    isUnsplit s = true := by
  obtain ⟨⟨us, behind⟩, hunits, hparts⟩ := Option.map_eq_some_iff.mp h
  obtain ⟨rfl, rfl⟩ := Prod.mk.inj hparts
  exact (joinedWell_of_isScalar ((readsUnits_of_stringUnits? hunits).isScalar ht)).1

/-! ## Values -/

/-- A number holds no text. -/
theorem allTexts_of_number {p : Text → Bool} (h : number negative t = .ok (v, rest)) :
    AllTexts p v := by
  cases number_eq_ok_iff.mp h with
  | power hwhole hfraction hexponent => exact .real _
  | point hwhole hfraction hexponent hdigits => exact .real _
  | whole hwhole hfraction hexponent hlength => exact .int _

theorem allTexts_of_scalarValue (h : scalarValue t = .ok (v, rest)) : AllTexts isUnsplit v := by
  rcases scalarValue_cases h with ⟨word, hword, -, rfl⟩ | ⟨negative, u, -, hnumber⟩
  · simp only [words, List.mem_cons, List.not_mem_nil, or_false] at hword
    rcases hword with rfl | rfl | rfl | rfl | rfl | rfl
    · exact .null
    · exact .bool true
    · exact .bool false
    · exact .real _
    · exact .real _
    · exact .real _
  · exact allTexts_of_number hnumber

theorem isScalar_of_suffix (h : rest <:+ t) (ht : t.isScalar = true) : rest.isScalar = true := by
  obtain ⟨front, rfl⟩ := h
  rw [Text.isScalar_append, Bool.and_eq_true] at ht
  exact ht.2

/-- All texts in fields pass a test, keys and values. -/
def FieldsPass (p : Text → Bool) (fs : List (Text × Json)) : Prop :=
  ∀ f ∈ fs, p f.1 = true ∧ AllTexts p f.2

theorem allTexts_of_valueStep
    (hitems : ∀ {room t vs rest}, items fuel room t = .ok (vs, rest) → t.isScalar = true →
      ∀ v ∈ vs, AllTexts isUnsplit v)
    (hfields : ∀ {room t fs rest}, fields fuel room t = .ok (fs, rest) → t.isScalar = true →
      FieldsPass isUnsplit fs)
    (ht : t.isScalar = true) (h : ValueStep fuel room t v rest) : AllTexts isUnsplit v := by
  -- What stands behind an opening bracket is made of characters as well.
  have hinside : ∀ {b c : CodePoint} {t u : Text}, skipSpace t = c :: u →
      Text.isScalar (b :: t) = true → Text.isScalar (c :: u) = true := by
    intro b c t u hstart ht
    rw [← hstart]
    exact isScalar_of_suffix ((skipSpace_suffix t).trans (List.suffix_cons b t)) ht
  cases h with
  | string hstring =>
      rw [Text.isScalar_cons, Bool.and_eq_true] at ht
      exact .str (isUnsplit_of_string? ht.2 hstring)
  | emptyArray hclose => exact .arr fun v hv => absurd hv List.not_mem_nil
  | array hstart hopen hread => exact .arr (hitems hread (hinside hstart ht))
  | emptyObject hclose =>
      exact .obj (fun f hf => absurd hf List.not_mem_nil) fun f hf => absurd hf List.not_mem_nil
  | object hstart hopen hread =>
      have hfs := hfields hread (hinside hstart ht)
      exact .obj (fun f hf => (hfs f (mem_lastEntries hf)).1)
        fun f hf => (hfs f (mem_lastEntries hf)).2
  | scalar hquote hbracket hbrace hscalar => exact allTexts_of_scalarValue hscalar

theorem allTexts_of_fieldStep
    (hvalue : ∀ {room t v rest}, value fuel room t = .ok (v, rest) → t.isScalar = true →
      AllTexts isUnsplit v)
    (ht : t.isScalar = true) (h : FieldStep fuel room t f rest) :
    isUnsplit f.1 = true ∧ AllTexts isUnsplit f.2 := by
  cases h with
  | field hkey hcolon hread =>
      rw [Text.isScalar_cons, Bool.and_eq_true] at ht
      have hbehind := (suffix_of_skipSpace hcolon).trans (string?_suffix hkey)
      have hscalar := isScalar_of_suffix ((skipSpace_suffix _).trans hbehind) ht.2
      exact ⟨isUnsplit_of_string? ht.2 hkey, hvalue hread hscalar⟩

/-- What is read from characters splits no pair. -/
theorem allTexts_of_read (fuel : Nat) : HoldsOfRead fuel
    (fun _ t v _ => t.isScalar = true → AllTexts isUnsplit v)
    (fun _ t vs _ => t.isScalar = true → ∀ v ∈ vs, AllTexts isUnsplit v)
    fun _ t fs _ => t.isScalar = true → FieldsPass isUnsplit fs := by
  refine .of_steps ?_ ?_ ?_ fuel
  · intro fuel room t v rest ih hstep ht
    exact allTexts_of_valueStep ih.items ih.fields ht hstep
  -- The items and fields behind a comma are endings of the text, so they are characters too.
  · intro fuel room t vs rest ih hstep ht
    cases hstep with
    | last hfirst hclose => exact List.forall_mem_singleton.mpr (ih.value hfirst ht)
    | more hfirst hcomma hlater =>
        have hbehind := (suffix_of_skipSpace hcomma).trans ((suffix_of_read fuel).value hfirst)
        have hscalar := isScalar_of_suffix ((skipSpace_suffix _).trans hbehind) ht
        exact List.forall_mem_cons.mpr ⟨ih.value hfirst ht, ih.items hlater hscalar⟩
  · intro fuel room t fs rest ih hstep ht
    cases hstep with
    | last hfirst hclose =>
        exact List.forall_mem_singleton.mpr (allTexts_of_fieldStep ih.value ht hfirst)
    | more hfirst hcomma hlater =>
        have hfield := suffix_of_fieldStep (suffix_of_read fuel).value hfirst
        have hbehind := (suffix_of_skipSpace hcomma).trans hfield
        have hscalar := isScalar_of_suffix ((skipSpace_suffix _).trans hbehind) ht
        exact List.forall_mem_cons.mpr
          ⟨allTexts_of_fieldStep ih.value ht hfirst, ih.fields hlater hscalar⟩

/-- No text in a value that is read from characters splits a pair. -/
theorem allTexts_of_parse [Stack] (ht : t.isScalar = true) (h : parse t = .ok v) :
    AllTexts isUnsplit v := by
  unfold parse at h
  split at h
  · contradiction
  · rename_i read rest hvalue
    split at h
    · rw [← Except.ok.inj h]
      exact (allTexts_of_read _).value hvalue (isScalar_of_suffix (skipSpace_suffix t) ht)
    · contradiction

/-! ## Fields -/

theorem fieldsPass_of_allTexts {p : Text → Bool} (h : AllTexts p (.obj fs)) : FieldsPass p fs := by
  cases h with
  | obj hkeys hfields => exact fun f hf => ⟨hkeys f hf, hfields f hf⟩

/-- The fields of a value, or those that stand for a void one. -/
theorem fieldsPass_of_fieldsOrVoid? {p : Text → Bool} (hv : AllTexts p v)
    (h : v.fieldsOrVoid? = some fs) : FieldsPass p fs := by
  unfold fieldsOrVoid? at h
  split at h
  · rw [← Option.some.inj h]
    exact fun f hf => absurd hf List.not_mem_nil
  · unfold fields? at h
    split at h
    · rw [← Option.some.inj h]
      exact fieldsPass_of_allTexts hv
    · contradiction

namespace FieldsPass

variable {p : Text → Bool} {key : Text}

theorem lookupEntry (h : FieldsPass p fs) (hlookup : lookupEntry key fs = some v) :
    AllTexts p v :=
  (h (key, v) (mem_of_lookupEntry hlookup)).2

theorem fieldOrNull (h : FieldsPass p fs) (key : Text) : AllTexts p (fieldOrNull fs key) := by
  unfold Json.fieldOrNull
  cases hlookup : Lifeline.lookupEntry key fs with
  | none => exact .null
  | some v => exact h.lookupEntry hlookup

theorem givenField? (h : FieldsPass p fs) (hgiven : givenField? fs key = some v) :
    AllTexts p v := by
  unfold Json.givenField? at hgiven
  split at hgiven
  · rename_i w hlookup
    split at hgiven
    · contradiction
    · rw [← Option.some.inj hgiven]
      exact h.lookupEntry hlookup
  · contradiction

end FieldsPass

end Lifeline.Json
