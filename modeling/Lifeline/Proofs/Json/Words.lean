import Lifeline.Proofs.Json.Strings
import Lifeline.Proofs.Text.Lines
import Lifeline.Proofs.Text.Pieces

/-!
# Words in written strings

What is written for a string in ASCII is printable.  A word without quotation marks,
backslashes, letters and digits cannot be made by escaping and cannot reach over the end
of a string, so it is found in what is written exactly when it stands in one of the
strings, or in the marks between them.
-/

namespace Lifeline.Json

variable {word t front back : Text} {c d : CodePoint}

/-- The characters from the space to the tilde. -/
def IsPrintableAscii (c : CodePoint) : Prop :=
  32 ≤ c.toNat ∧ c.toNat ≤ 126

instance (c : CodePoint) : Decidable (IsPrintableAscii c) :=
  inferInstanceAs (Decidable (_ ∧ _))

/-- The characters that escape sequences are made of. -/
def isEscapeChar (c : CodePoint) : Bool :=
  c == '\\' || c == '"' || c.isAlphanum

/-- The fields of an object whose values are strings. -/
def stringFields (entries : List (Text × Text)) : List (Text × Json) :=
  entries.map fun e => (e.1, .str e.2)

/-! ## Characters -/

theorem isEscapeChar_escapeCode {n : Nat} (hn : n < 65536) :
    ∀ d ∈ escapeCode n, isEscapeChar d = true := by
  have hdigits : ∀ k < 16, isEscapeChar (Nat.digitChar k) = true := by decide
  rw [escapeCode, hex_four hn]
  simp only [List.forall_mem_cons]
  refine ⟨by decide, by decide, hdigits _ (by omega), hdigits _ (by omega), hdigits _ (by omega),
    hdigits _ (by omega), fun _ h => absurd h List.not_mem_nil⟩

theorem isEscapeChar_escapeChar (c : CodePoint) : ∀ d ∈ escapeChar c, isEscapeChar d = true := by
  have hbound := c.toNat_lt
  unfold escapeChar
  simp only
  split
  · rename_i hc
    exact isEscapeChar_escapeCode hc
  · intro d hd
    rcases List.mem_append.mp hd with hd | hd
    · exact isEscapeChar_escapeCode (by omega) d hd
    · exact isEscapeChar_escapeCode (by omega) d hd

/-- A character is written as itself when it is printable, or as an escape sequence. -/
theorem stringChar_cases (c : CodePoint) : (stringChar true c = [c] ∧ IsPrintableAscii c) ∨
    (stringChar true c ≠ [] ∧ ∀ d ∈ stringChar true c, isEscapeChar d = true) := by
  have hescapes : ∀ e ∈ "\"\\nrtbf".toText, isEscapeChar e = true :=
    List.all_eq_true.mp (by decide)
  have hpair : ∀ e ∈ "\"\\nrtbf".toText,
      ([.char '\\', e] ≠ [] ∧ ∀ d ∈ [.char '\\', e], isEscapeChar d = true) := by
    intro e he
    refine ⟨List.cons_ne_nil _ _, ?_⟩
    simp only [List.forall_mem_cons]
    exact ⟨by decide, hescapes e he, fun _ h => absurd h List.not_mem_nil⟩
  unfold stringChar
  -- Seven characters have an escape of their own; the others are controls, wide, or printable.
  split_ifs with h1 h2 h3 h4 h5 h6 h7 hcontrol hwide
  · exact Or.inr (hpair _ (by decide))
  · exact Or.inr (hpair _ (by decide))
  · exact Or.inr (hpair _ (by decide))
  · exact Or.inr (hpair _ (by decide))
  · exact Or.inr (hpair _ (by decide))
  · exact Or.inr (hpair _ (by decide))
  · exact Or.inr (hpair _ (by decide))
  · exact Or.inr ⟨List.cons_ne_nil _ _, isEscapeChar_escapeCode (by omega)⟩
  · refine Or.inr ⟨?_, isEscapeChar_escapeChar c⟩
    unfold escapeChar
    simp only
    split
    · exact List.cons_ne_nil _ _
    · exact List.cons_ne_nil _ _
  · refine Or.inl ⟨rfl, by omega, ?_⟩
    simpa using hwide

theorem isPrintableAscii_of_isEscapeChar (h : isEscapeChar c = true) : IsPrintableAscii c := by
  simp only [isEscapeChar, Bool.or_eq_true, beq_iff_eq] at h
  rcases h with (rfl | rfl) | halphanum
  · exact ⟨by decide, by decide⟩
  · exact ⟨by decide, by decide⟩
  · have hall : ∀ n < 128, (CodePoint.ofNat n).isAlphanum = true →
      IsPrintableAscii (CodePoint.ofNat n) := by
      decide
    have hprintable := hall c.toNat (Text.toNat_lt_of_isAlphanum halphanum)
    rw [CodePoint.ofNat_toNat] at hprintable
    exact hprintable halphanum

theorem isPrintableAscii_of_all (h : t.all (fun c => decide (IsPrintableAscii c)) = true) :
    ∀ c ∈ t, IsPrintableAscii c :=
  fun c hc => of_decide_eq_true (List.all_eq_true.mp h c hc)

theorem isPrintableAscii_writeString (t : Text) :
    ∀ c ∈ writeString true t, IsPrintableAscii c := by
  intro c hc
  have hmark : IsPrintableAscii '"' := ⟨by decide, by decide⟩
  rcases List.mem_cons.mp hc with rfl | hc
  · exact hmark
  · rcases List.mem_append.mp hc with hc | hc
    · obtain ⟨d, -, hd⟩ := List.mem_flatMap.mp hc
      rcases stringChar_cases d with ⟨hself, hprintable⟩ | ⟨-, hescape⟩
      · rw [hself] at hd
        rwa [List.mem_singleton.mp hd]
      · exact isPrintableAscii_of_isEscapeChar (hescape c hd)
    · rwa [List.mem_singleton.mp hc]

/-! ## Words -/

/-- A word that is written as it is and has nothing that escape sequences are made of. -/
structure IsVerbatim (word : Text) : Prop where
  ne_nil : word ≠ []
  verbatim : ∀ d ∈ word, stringChar true d = [d]
  notEscape : ∀ d ∈ word, isEscapeChar d = false

namespace IsVerbatim

variable (hword : IsVerbatim word)
include hword

theorem quote_notMem : .char '"' ∉ word := by
  intro hmem
  have hescape := hword.notEscape '"' hmem
  contradiction

/-- A part of the word that begins what is written begins the string. -/
theorem prefix_of_prefix_flatMap {part : Text} (hpart : part <:+ word)
    (h : part <+: t.flatMap (stringChar true)) : part <+: t := by
  induction t generalizing part with
  | nil => exact h
  | cons c t ih =>
      cases part with
      | nil => exact List.nil_prefix
      | cons d part =>
          rw [List.flatMap_cons] at h
          rcases stringChar_cases c with ⟨hself, -⟩ | ⟨hne, hescape⟩
          · rw [hself, List.singleton_append] at h
            obtain ⟨rfl, hrest⟩ := List.cons_prefix_cons.mp h
            exact List.cons_prefix_cons.mpr
              ⟨rfl, ih ((List.suffix_cons d part).trans hpart) hrest⟩
          -- An escape begins with a character that the word has not.
          · obtain ⟨e, escape, hcons⟩ := List.exists_cons_of_ne_nil hne
            rw [hcons, List.cons_append] at h
            obtain ⟨rfl, -⟩ := List.cons_prefix_cons.mp h
            have hnot := hword.notEscape d (hpart.subset List.mem_cons_self)
            rw [hescape d (by rw [hcons]; exact List.mem_cons_self)] at hnot
            contradiction

/-- The word does not begin in an escape sequence. -/
theorem infix_of_infix_append {escape : Text} (hescape : ∀ d ∈ escape, isEscapeChar d = true)
    (h : word <:+: escape ++ t) : word <:+: t := by
  induction escape with
  | nil => exact h
  | cons e escape ih =>
      obtain ⟨he, hescape⟩ := List.forall_mem_cons.mp hescape
      rcases List.infix_cons_iff.mp h with hbegin | hinside
      · obtain ⟨d, rest, hcons⟩ := List.exists_cons_of_ne_nil hword.ne_nil
        rw [hcons] at hbegin
        obtain ⟨rfl, -⟩ := List.cons_prefix_cons.mp hbegin
        have hnot := hword.notEscape d (by rw [hcons]; exact List.mem_cons_self)
        rw [he] at hnot
        contradiction
      · exact ih hescape hinside

/-- The word stands in what is written for the characters of a string exactly when it stands
in the string. -/
theorem infix_flatMap_iff : word <:+: t.flatMap (stringChar true) ↔ word <:+: t := by
  constructor
  · intro h
    induction t with
    | nil => exact h
    | cons c t ih =>
        rw [List.flatMap_cons] at h
        rcases stringChar_cases c with ⟨hself, -⟩ | ⟨-, hescape⟩
        · rw [hself, List.singleton_append] at h
          rcases List.infix_cons_iff.mp h with hbegin | hinside
          · have hwhole : word <+: (c :: t).flatMap (stringChar true) := by
              rwa [List.flatMap_cons, hself, List.singleton_append]
            exact (hword.prefix_of_prefix_flatMap (List.suffix_refl word) hwhole).isInfix
          · exact List.infix_cons (ih hinside)
        · exact List.infix_cons (ih (hword.infix_of_infix_append hescape h))
  · rintro ⟨front, back, rfl⟩
    rw [List.flatMap_append, List.flatMap_append, List.flatMap_congr hword.verbatim,
      List.flatMap_singleton']
    exact List.infix_append _ _ _

/-- The quotation marks of a string keep the word from reaching over its ends. -/
theorem infix_append_writeString_iff : word <:+: front ++ (writeString true t ++ back) ↔
    word <:+: front ∨ word <:+: t ∨ word <:+: back := by
  have hsplit : front ++ (writeString true t ++ back) =
      front ++ .char '"' :: (t.flatMap (stringChar true) ++ .char '"' :: back) := by
    simp [writeString]
  rw [hsplit, infix_append_cons_iff hword.quote_notMem,
    infix_append_cons_iff hword.quote_notMem, hword.infix_flatMap_iff]

/-- The word stands in written fields of strings exactly when it stands in one of the keys or
strings, or in what is written in front of them or behind them. -/
theorem infix_append_writeFields_iff (hcolon : ¬ word <:+: ":".toText)
    (hcomma : ¬ word <:+: ",".toText) {depth : Nat} {entries : List (Text × Text)}
    (hne : entries ≠ []) :
    word <:+: front ++ (writeFields .denseAscii depth (stringFields entries) ++ back) ↔
      word <:+: front ∨ (∃ e ∈ entries, word <:+: e.1 ∨ word <:+: e.2) ∨ word <:+: back := by
  -- The field in front of the others is taken into what stands in front of them.
  induction entries generalizing front with
  | nil => contradiction
  | cons e entries ih =>
      obtain ⟨k, v⟩ := e
      cases entries with
      | nil =>
          have hsplit : front ++ (writeFields .denseAscii depth (stringFields [(k, v)]) ++ back) =
              front ++ (writeString true k ++ (":".toText ++ (writeString true v ++ back))) := by
            simp [stringFields, writeFields, writeAt, Layout.denseAscii]
          rw [hsplit, hword.infix_append_writeString_iff, hword.infix_append_writeString_iff]
          simp only [List.mem_singleton, exists_eq_left, hcolon, false_or, or_assoc]
      | cons next entries =>
          have hsplit : front ++ (writeFields .denseAscii depth
                (stringFields ((k, v) :: next :: entries)) ++ back) =
              front ++ (writeString true k ++ (":".toText ++ (writeString true v ++
                (",".toText ++ (writeFields .denseAscii depth
                  (stringFields (next :: entries)) ++ back))))) := by
            simp [stringFields, writeFields, writeAt, Layout.denseAscii, Layout.newLine]
          rw [hsplit, hword.infix_append_writeString_iff, hword.infix_append_writeString_iff,
            ih (List.cons_ne_nil next entries)]
          simp only [List.exists_mem_cons_iff, hcolon, hcomma, false_or, or_assoc]

end IsVerbatim

/-! ## Fields of strings -/

theorem stringFields_ne_nil {entries : List (Text × Text)} (hne : entries ≠ []) :
    stringFields entries ≠ [] := by
  rwa [stringFields, Ne, List.map_eq_nil_iff]

/-- An object with fields is written on one line. -/
theorem writeAt_denseAscii_obj {depth : Nat} {fields : List (Text × Json)} (hne : fields ≠ []) :
    writeAt .denseAscii depth (.obj fields) =
      .char '{' :: (writeFields .denseAscii (depth + 1) fields ++ [.char '}']) := by
  obtain ⟨f, fs, rfl⟩ := List.exists_cons_of_ne_nil hne
  simp [writeAt, Layout.newLine, Layout.denseAscii]

theorem isPrintableAscii_writeFields {depth : Nat} (entries : List (Text × Text)) :
    ∀ c ∈ writeFields .denseAscii depth (stringFields entries), IsPrintableAscii c := by
  have hcolon : IsPrintableAscii ':' := ⟨by decide, by decide⟩
  have hcomma : IsPrintableAscii ',' := ⟨by decide, by decide⟩
  induction entries with
  | nil => exact fun c hc => absurd hc List.not_mem_nil
  | cons e entries ih =>
      obtain ⟨k, v⟩ := e
      have hk := isPrintableAscii_writeString k
      have hv := isPrintableAscii_writeString v
      -- A comma stands between fields, and none behind the last one.
      cases entries with
      | nil =>
          have hfields : writeFields .denseAscii depth (stringFields [(k, v)]) =
              writeString true k ++ .char ':' :: writeString true v := by
            simp [stringFields, writeFields, writeAt, Layout.denseAscii]
          rw [hfields, List.forall_mem_append, List.forall_mem_cons]
          exact ⟨hk, hcolon, hv⟩
      | cons next entries =>
          have hfields : writeFields .denseAscii depth (stringFields ((k, v) :: next :: entries)) =
              writeString true k ++ .char ':' :: (writeString true v ++ .char ',' ::
                writeFields .denseAscii depth (stringFields (next :: entries))) := by
            simp [stringFields, writeFields, writeAt, Layout.denseAscii, Layout.newLine]
          rw [hfields, List.forall_mem_append, List.forall_mem_cons, List.forall_mem_append,
            List.forall_mem_cons]
          exact ⟨hk, hcolon, hv, hcomma, ih⟩

end Lifeline.Json
