import Lifeline.Json.Display
import Lifeline.Proofs.Json.RoundTrip

/-!
# What is written in characters

A layout that escapes everything beyond ASCII writes characters, whatever the texts of a value
are; another layout does when the texts are made of characters.  What a message shows of a value
is made of characters as well, since a surrogate is shown by its number.
-/

namespace Lifeline

/-! ## Numbers -/

namespace Text

@[simp] theorem isScalar_replicate_char (n : Nat) (c : Char) :
    isScalar (List.replicate n (.char c)) = true :=
  isScalar_iff.mpr fun d hd => by
    rw [List.eq_of_mem_replicate hd]
    rfl

@[simp] theorem isScalar_hex (width n : Nat) : (hex width n).isScalar = true := by
  unfold hex
  rw [isScalar_append, isScalar_replicate_char, isScalar_map_char]
  rfl

@[simp] theorem isScalar_ofNat (n : Nat) : (ofNat n).isScalar = true :=
  isScalar_map_char _

@[simp] theorem isScalar_ofInt (n : Int) : (ofInt n).isScalar = true := by
  cases n with
  | ofNat n => exact isScalar_ofNat n
  | negSucc n => exact isScalar_ofNat (n + 1)

end Text

namespace Binary64

theorem isScalar_layOut {digits : Text} (hdigits : digits.isScalar = true) (power : Int) :
    (layOut digits power).isScalar = true := by
  have hcons : ∀ c t, Text.isScalar (.char c :: t) = Text.isScalar t := fun c t => rfl
  have htake : ∀ n, Text.isScalar (digits.take n) = true :=
    fun n => Text.isScalar_of_subset (List.take_subset n digits) hdigits
  have hdrop : ∀ n, Text.isScalar (digits.drop n) = true :=
    fun n => Text.isScalar_of_subset (List.drop_subset n digits) hdigits
  -- Beside the digits only zeros, a point, a sign and an exponent are written.
  unfold layOut
  simp only
  split
  · split
    · rw [Text.isScalar_append, Text.isScalar_append, Text.isScalar_replicate_char, hdigits]
      rfl
    · rw [Text.isScalar_append, Text.isScalar_append, htake, Text.isScalar_replicate_char, hcons]
      split
      · rfl
      · exact hdrop _
  · have hpoint : Text.isScalar
        (if digits.length = 1 then [] else .char '.' :: digits.drop 1) = true := by
      split
      · rfl
      · exact hdrop 1
    have hsign : (if power < 0 then CodePoint.char '-' else .char '+').isScalar = true := by
      split <;> rfl
    rw [Text.isScalar_append, Text.isScalar_append, htake, hpoint, hcons, Text.isScalar_cons,
      hsign, Text.isScalar_append, Text.isScalar_replicate_char, Text.isScalar_ofNat]
    rfl

theorem isScalar_finiteText (negative : Bool) (rank : Nat) :
    (finiteText negative rank).isScalar = true := by
  have hmagnitude : (magnitudeText rank).isScalar = true := by
    unfold magnitudeText
    split
    · decide
    · exact isScalar_layOut (Text.isScalar_ofNat _) _
  unfold finiteText
  split
  · exact hmagnitude
  · exact hmagnitude

end Binary64

namespace Json

variable {layout : Layout} {t : Text} {v : Json} {depth : Nat}

theorem isScalar_writeReal (x : Binary64) : (writeReal x).isScalar = true := by
  cases x with
  | finite negative rank => exact Binary64.isScalar_finiteText negative rank.val
  | infinite negative => cases negative <;> decide
  | notANumber => decide

/-! ## Strings -/

@[simp] theorem isScalar_escapeCode (n : Nat) : (escapeCode n).isScalar = true :=
  Text.isScalar_hex 4 n

theorem isScalar_escapeChar (c : CodePoint) : (escapeChar c).isScalar = true := by
  unfold escapeChar
  simp only
  split
  · exact isScalar_escapeCode _
  · rw [Text.isScalar_append, isScalar_escapeCode, isScalar_escapeCode]
    rfl

theorem isScalar_stringChar {ascii : Bool} {c : CodePoint}
    (hc : ascii = true ∨ c.isScalar = true) : (stringChar ascii c).isScalar = true := by
  unfold stringChar
  split_ifs with h1 h2 h3 h4 h5 h6 h7 hcontrol hwide
  iterate 7 rfl
  · exact isScalar_escapeCode _
  · exact isScalar_escapeChar c
  · -- The character stands for itself: it is ASCII, or the layout leaves all characters.
    rw [Text.isScalar_cons, Text.isScalar_nil, Bool.and_true]
    rcases hc with rfl | hc
    · rw [Bool.true_and, decide_eq_true_eq] at hwide
      exact CodePoint.isScalar_of_toNat_lt (by omega)
    · exact hc

theorem isScalar_writeString {ascii : Bool} (ht : ascii = true ∨ t.isScalar = true) :
    (writeString ascii t).isScalar = true := by
  have hchars : Text.isScalar (t.flatMap (stringChar ascii)) = true := by
    rw [Text.isScalar_iff]
    intro d hd
    obtain ⟨c, hc, hd⟩ := List.mem_flatMap.mp hd
    exact Text.isScalar_iff.mp
      (isScalar_stringChar (ht.imp id fun h => Text.isScalar_iff.mp h c hc)) d hd
  show Text.isScalar (t.flatMap (stringChar ascii) ++ [.char '"']) = true
  rw [Text.isScalar_append, hchars]
  rfl

/-! ## Values -/

/-- Commas and colons are made of characters. -/
structure Layout.Plain (layout : Layout) : Prop where
  comma : layout.comma.isScalar = true
  colon : layout.colon.isScalar = true

theorem isScalar_newLine (layout : Layout) (depth : Nat) :
    (layout.newLine depth).isScalar = true := by
  unfold Layout.newLine
  split
  · exact Text.isScalar_replicate_char _ ' '
  · rfl

theorem isScalar_writeItems (hlayout : layout.Plain) {items : List Json}
    (hitems : ∀ v ∈ items, (writeAt layout depth v).isScalar = true) :
    (writeItems layout depth items).isScalar = true := by
  induction items with
  | nil => rfl
  | cons v items ih =>
      obtain ⟨hv, hitems⟩ := List.forall_mem_cons.mp hitems
      cases items with
      | nil => exact hv
      | cons next items =>
          rw [writeItems, Text.isScalar_append, Text.isScalar_append, Text.isScalar_append, hv,
            hlayout.comma, isScalar_newLine, ih hitems]
          rfl

theorem isScalar_writeFields (hlayout : layout.Plain) {fields : List (Text × Json)}
    (hkeys : ∀ f ∈ fields, (writeString layout.ascii f.1).isScalar = true)
    (hfields : ∀ f ∈ fields, (writeAt layout depth f.2).isScalar = true) :
    (writeFields layout depth fields).isScalar = true := by
  induction fields with
  | nil => rfl
  | cons f fields ih =>
      obtain ⟨k, v⟩ := f
      obtain ⟨hk, hkeys⟩ := List.forall_mem_cons.mp hkeys
      obtain ⟨hv, hfields⟩ := List.forall_mem_cons.mp hfields
      cases fields with
      | nil =>
          rw [writeFields, Text.isScalar_append, Text.isScalar_append, hk, hlayout.colon, hv]
          rfl
      | cons next fields =>
          simp only [writeFields, Text.isScalar_append, hk, hlayout.colon, hv, hlayout.comma,
            isScalar_newLine, ih hkeys hfields, Bool.and_true]

/-- What is written for a value is made of characters when the written strings are. -/
theorem isScalar_writeAt (hlayout : layout.Plain)
    (hv : AllTexts (fun t => (writeString layout.ascii t).isScalar) v) (depth : Nat) :
    (writeAt layout depth v).isScalar = true := by
  have hclose : ∀ (depth : Nat) (t : Text) (c : Char), t.isScalar = true →
      Text.isScalar (t ++ layout.newLine depth ++ [.char c]) = true := by
    intro depth t c ht
    rw [Text.isScalar_append, Text.isScalar_append, ht, isScalar_newLine]
    rfl
  -- By induction on the value: around the parts stand brackets, commas and new lines only.
  induction hv generalizing depth with
  | null => rfl
  | bool b => cases b <;> rfl
  | int n => exact Text.isScalar_ofInt n
  | real x => exact isScalar_writeReal x
  | str ht => exact ht
  | @arr items hitems ih =>
      cases items with
      | nil => rfl
      | cons v items =>
          apply hclose depth _ ']'
          rw [Text.isScalar_append, isScalar_newLine,
            isScalar_writeItems hlayout fun w hw => ih w hw (depth + 1)]
          rfl
  | @obj fields hkeys hfields ih =>
      cases fields with
      | nil => rfl
      | cons f fields =>
          apply hclose depth _ '}'
          rw [Text.isScalar_append, isScalar_newLine,
            isScalar_writeFields hlayout hkeys fun g hg => ih g hg (depth + 1)]
          rfl

/-- Texts of characters are written in characters. -/
theorem isScalar_write (hlayout : layout.Plain) (hv : AllTexts Text.isScalar v) :
    (write layout v).isScalar = true :=
  isScalar_writeAt hlayout (hv.imp fun _ ht => isScalar_writeString (Or.inr ht)) 0

/-- A test that every text passes is passed by all texts of a value. -/
theorem Readable.allTexts {room : Nat} {p : Text → Bool} (hp : ∀ t, p t = true)
    (hv : Readable room v) : AllTexts p v := by
  induction hv with
  | null => exact .null
  | bool b => exact .bool b
  | int hdigits => exact .int _
  | real x => exact .real x
  | str t => exact .str (hp t)
  | arr hitems ih => exact .arr ih
  | obj hkeys hfields ih => exact .obj (fun f _ => hp f.1) ih

/-- A layout that escapes what is not ASCII writes characters. -/
theorem isScalar_write_of_ascii {room : Nat} (hlayout : layout.Plain)
    (hascii : layout.ascii = true) (hv : Readable room v) : (write layout v).isScalar = true :=
  isScalar_writeAt hlayout (hv.allTexts fun _ => isScalar_writeString (Or.inl hascii)) 0

theorem plain_dense : Layout.dense.Plain where
  comma := rfl
  colon := rfl

theorem plain_page : Layout.page.Plain where
  comma := rfl
  colon := rfl

/-! ## Messages -/

theorem isScalar_of_isPrintable {c : CodePoint} (h : Text.isPrintable c = true) :
    c.isScalar = true := by
  cases c with
  | char c => rfl
  | surrogate n =>
      have hn := n.isLt
      have hlarge : ¬ (CodePoint.surrogate n).toNat < 128 := by
        rw [CodePoint.toNat_surrogate, firstSurrogate]
        omega
      have hinside : Text.inRanges (CodePoint.surrogate n).toNat Text.unprintableRanges = true := by
        refine List.any_eq_true.mpr ⟨(0xD7FC, 0xF8FF), by decide, ?_⟩
        rw [CodePoint.toNat_surrogate, firstSurrogate, Bool.and_eq_true, decide_eq_true_eq,
          decide_eq_true_eq]
        omega
      rw [Text.isPrintable, if_neg hlarge, hinside] at h
      contradiction

theorem isScalar_quoted (t : Text) : (Text.quoted t).isScalar = true := by
  have hquote : (Text.quoteFor t).isScalar = true := by
    unfold Text.quoteFor
    -- A quote and a backslash are marked, and what cannot be printed is written by its number.
    split <;> rfl
  have hchar : ∀ c, (Text.quoteChar (Text.quoteFor t) c).isScalar = true := by
    intro c
    unfold Text.quoteChar
    split
    · rename_i hself
      rw [Bool.or_eq_true, beq_iff_eq, beq_iff_eq] at hself
      rcases hself with rfl | rfl
      · rw [Text.isScalar_cons, Text.isScalar_cons, hquote]
        rfl
      · rfl
    split
    · rfl
    split
    · rfl
    split
    · rfl
    split
    · rename_i hprintable
      rw [Text.isScalar_cons, isScalar_of_isPrintable hprintable]
      rfl
    split
    · exact Text.isScalar_hex 2 _
    split
    · exact Text.isScalar_hex 4 _
    · exact Text.isScalar_hex 8 _
  have hchars : Text.isScalar (t.flatMap (Text.quoteChar (Text.quoteFor t))) = true := by
    rw [Text.isScalar_iff]
    intro d hd
    obtain ⟨c, -, hd⟩ := List.mem_flatMap.mp hd
    exact Text.isScalar_iff.mp (hchar c) d hd
  unfold Text.quoted
  rw [Text.isScalar_cons, Text.isScalar_append, hquote, hchars, Text.isScalar_cons, hquote]
  rfl

theorem isScalar_displayReal (x : Binary64) : (displayReal x).isScalar = true := by
  cases x with
  | finite negative rank => exact Binary64.isScalar_finiteText negative rank.val
  | infinite negative => cases negative <;> decide
  | notANumber => decide

mutual

/-- What a message shows of a value is made of characters. -/
theorem isScalar_shown : (v : Json) → (shown v).isScalar = true
  | .null => rfl
  | .bool true => rfl
  | .bool false => rfl
  | .int n => Text.isScalar_ofInt n
  | .real x => isScalar_displayReal x
  | .str t => isScalar_quoted t
  | .arr items => by
      show Text.isScalar (shownItems items ++ [.char ']']) = true
      rw [Text.isScalar_append, isScalar_shownItems items]
      rfl
  | .obj fields => by
      show Text.isScalar (shownFields fields ++ [.char '}']) = true
      rw [Text.isScalar_append, isScalar_shownFields fields]
      rfl

theorem isScalar_shownItems : (items : List Json) → (shownItems items).isScalar = true
  | [] => rfl
  | [v] => isScalar_shown v
  | v :: next :: rest => by
      rw [shownItems, Text.isScalar_append, Text.isScalar_append, isScalar_shown v,
        isScalar_shownItems (next :: rest)]
      rfl

theorem isScalar_shownFields : (fields : List (Text × Json)) →
    (shownFields fields).isScalar = true
  | [] => rfl
  | [(k, v)] => by
      rw [shownFields, Text.isScalar_append, Text.isScalar_append, isScalar_quoted k,
        isScalar_shown v]
      rfl
  | (k, v) :: next :: rest => by
      rw [shownFields, Text.isScalar_append, Text.isScalar_append, Text.isScalar_append,
        Text.isScalar_append, isScalar_quoted k, isScalar_shown v,
        isScalar_shownFields (next :: rest)]
      rfl

end

end Json
end Lifeline
