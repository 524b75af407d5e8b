/-!
# Code points and texts

A text is a list of code points, so that every rule of this library is an ordinary recursion on
lists.  A code point is a character of Unicode or half of a surrogate pair.  A half may stand
alone in a text that was read from JSON; it has a number as every code point, but it has no
UTF-8, and no rule of this library looks for one.
-/

namespace Lifeline

/-- A code point: a character, or half of a surrogate pair, counted from the first one. -/
inductive CodePoint where
  | char (c : Char)
  | surrogate (n : Fin 2048)
deriving DecidableEq

/-- A text is a sequence of code points. -/
abbrev Text := List CodePoint

/-- Where the halves of surrogate pairs begin. -/
def firstSurrogate : Nat := 0xD800

/-- A number is the first half of a surrogate pair. -/
def isHighSurrogate (n : Nat) : Bool :=
  0xD800 ≤ n && n < 0xDC00

/-- A number is the second half of a surrogate pair. -/
def isLowSurrogate (n : Nat) : Bool :=
  0xDC00 ≤ n && n < 0xE000

/-- The number of the character that a surrogate pair stands for. -/
def joinSurrogates (high low : Nat) : Nat :=
  0x10000 + (high - 0xD800) * 1024 + (low - 0xDC00)

namespace CodePoint

instance : Coe Char CodePoint :=
  ⟨.char⟩

/-- The number of a code point. -/
def toNat : CodePoint → Nat
  | .char c => c.toNat
  | .surrogate n => firstSurrogate + n

/-- The character U+FFFD, which stands for what cannot be read. -/
def replacement : CodePoint :=
  '\uFFFD'

/-- The code point of a number; the replacement character for a number beyond all of them. -/
def ofNat (n : Nat) : CodePoint :=
  if h : n.isValidChar then .char (Char.ofNatAux n h)
  else if h : firstSurrogate ≤ n ∧ n < firstSurrogate + 2048 then
    .surrogate ⟨n - firstSurrogate, by omega⟩
  else replacement

/-- A code point is a character, and no half of a surrogate pair. -/
def isScalar : CodePoint → Bool
  | .char _ => true
  | .surrogate _ => false

instance : LE CodePoint :=
  ⟨fun a b => a.toNat ≤ b.toNat⟩

instance (a b : CodePoint) : Decidable (a ≤ b) :=
  inferInstanceAs (Decidable (a.toNat ≤ b.toNat))

/-! ## ASCII -/

def isUpper : CodePoint → Bool
  | .char c => c.isUpper
  | .surrogate _ => false

def isLower : CodePoint → Bool
  | .char c => c.isLower
  | .surrogate _ => false

def isAlpha (c : CodePoint) : Bool :=
  c.isUpper || c.isLower

def isDigit : CodePoint → Bool
  | .char c => c.isDigit
  | .surrogate _ => false

def isAlphanum (c : CodePoint) : Bool :=
  c.isAlpha || c.isDigit

/-- The small letter of an ASCII capital; any other code point stays. -/
def toLower : CodePoint → CodePoint
  | .char c => .char c.toLower
  | .surrogate n => .surrogate n

/-! ## Small facts -/

theorem toNat_char (c : Char) : (char c).toNat = c.toNat := rfl

theorem toNat_surrogate (n : Fin 2048) : (surrogate n).toNat = firstSurrogate + n := rfl

/-- A character has a number outside the surrogates. -/
theorem toNat_bounds (c : Char) : c.toNat < 0xD800 ∨ 0xDFFF < c.toNat ∧ c.toNat < 0x110000 :=
  c.valid

theorem toNat_lt (c : CodePoint) : c.toNat < 0x110000 := by
  cases c with
  | char c =>
      have hbounds := toNat_bounds c
      rw [toNat_char]
      omega
  | surrogate n =>
      have hn := n.isLt
      rw [toNat_surrogate, firstSurrogate]
      omega

@[simp] theorem ofNat_toNat (c : CodePoint) : ofNat c.toNat = c := by
  cases c with
  | char c =>
      have hvalid : (char c).toNat.isValidChar := c.valid
      rw [ofNat, dif_pos hvalid]
      rfl
  | surrogate n =>
      have hn := n.isLt
      have hinvalid : ¬ (surrogate n).toNat.isValidChar := by
        rw [toNat_surrogate, firstSurrogate, Nat.isValidChar]
        omega
      have hbetween : firstSurrogate ≤ (surrogate n).toNat ∧
          (surrogate n).toNat < firstSurrogate + 2048 := by
        rw [toNat_surrogate]
        omega
      rw [ofNat, dif_neg hinvalid, dif_pos hbetween]
      simp [toNat_surrogate]

theorem toNat_inj {a b : CodePoint} : a.toNat = b.toNat ↔ a = b := by
  constructor
  · intro h
    rw [← ofNat_toNat a, h, ofNat_toNat]
  · rintro rfl
    rfl

theorem toNat_ofNat {n : Nat} (hn : n < 0x110000) : (ofNat n).toNat = n := by
  by_cases hvalid : n.isValidChar
  · rw [ofNat, dif_pos hvalid]
    rfl
  · have hbetween : firstSurrogate ≤ n ∧ n < firstSurrogate + 2048 := by
      rw [Nat.isValidChar] at hvalid
      rw [firstSurrogate]
      omega
    rw [ofNat, dif_neg hvalid, dif_pos hbetween, toNat_surrogate]
    show firstSurrogate + (n - firstSurrogate) = n
    omega

theorem ofNat_of_le {n : Nat} (hn : 0x110000 ≤ n) : ofNat n = replacement := by
  rw [ofNat, dif_neg (by rw [Nat.isValidChar]; omega), dif_neg (by rw [firstSurrogate]; omega)]

theorem le_def {a b : CodePoint} : a ≤ b ↔ a.toNat ≤ b.toNat := Iff.rfl

theorem isScalar_of_toNat_lt {c : CodePoint} (h : c.toNat < 0xD800) : c.isScalar = true := by
  cases c with
  | char c => rfl
  | surrogate n =>
      rw [toNat_surrogate, firstSurrogate] at h
      omega

theorem toNat_val (c : Char) : c.val.toNat = c.toNat := rfl

theorem between_iff {first c last : Char} : c.val ≥ first.val ∧ c.val ≤ last.val ↔
    first.toNat ≤ c.toNat ∧ c.toNat ≤ last.toNat := by
  rw [ge_iff_le, UInt32.le_iff_toNat_le, UInt32.le_iff_toNat_le]
  rfl

theorem isUpper_iff {c : CodePoint} : c.isUpper = true ↔ 65 ≤ c.toNat ∧ c.toNat ≤ 90 := by
  cases c with
  | char c =>
      show decide (c.val ≥ 'A'.val ∧ c.val ≤ 'Z'.val) = true ↔ _
      rw [decide_eq_true_eq, between_iff]
      rfl
  | surrogate n =>
      simp only [isUpper, toNat_surrogate, firstSurrogate, Bool.false_eq_true, false_iff]
      omega

theorem isLower_iff {c : CodePoint} : c.isLower = true ↔ 97 ≤ c.toNat ∧ c.toNat ≤ 122 := by
  cases c with
  | char c =>
      show (decide (c.val ≥ 'a'.val) && decide (c.val ≤ 'z'.val)) = true ↔ _
      rw [Bool.and_eq_true, decide_eq_true_eq, decide_eq_true_eq, between_iff]
      rfl
  | surrogate n =>
      simp only [isLower, toNat_surrogate, firstSurrogate, Bool.false_eq_true, false_iff]
      omega

theorem isDigit_iff {c : CodePoint} : c.isDigit = true ↔ 48 ≤ c.toNat ∧ c.toNat ≤ 57 := by
  cases c with
  | char c =>
      show (decide (c.val ≥ '0'.val) && decide (c.val ≤ '9'.val)) = true ↔ _
      rw [Bool.and_eq_true, decide_eq_true_eq, decide_eq_true_eq, between_iff]
      rfl
  | surrogate n =>
      simp only [isDigit, toNat_surrogate, firstSurrogate, Bool.false_eq_true, false_iff]
      omega

theorem isAlpha_iff {c : CodePoint} :
    c.isAlpha = true ↔ (65 ≤ c.toNat ∧ c.toNat ≤ 90) ∨ (97 ≤ c.toNat ∧ c.toNat ≤ 122) := by
  rw [isAlpha, Bool.or_eq_true, isUpper_iff, isLower_iff]

theorem not_isUpper_of_isLower {c : CodePoint} (h : c.isLower = true) : ¬ c.isUpper = true := by
  rw [isLower_iff] at h
  rw [isUpper_iff]
  omega

theorem toLower_eq_of_not_isUpper {c : CodePoint} (h : ¬ c.isUpper = true) : c.toLower = c := by
  cases c with
  | char c =>
      have hupper : ¬ (c.val ≥ 'A'.val ∧ c.val ≤ 'Z'.val) :=
        fun hupper => h (isUpper_iff.mpr (between_iff.mp hupper))
      exact congrArg char (dif_neg hupper)
  | surrogate n => rfl

/-- The small letter of a capital stands 32 places behind it. -/
theorem toNat_toLower_of_isUpper {c : CodePoint} (h : c.isUpper = true) :
    c.toLower.toNat = c.toNat + 32 := by
  cases c with
  | char c =>
      have hbounds := isUpper_iff.mp h
      have hupper : c.val ≥ 'A'.val ∧ c.val ≤ 'Z'.val := between_iff.mpr hbounds
      have hval : c.toLower.val = c.val + 32 := congrArg Char.val (dif_pos hupper)
      have hlt : c.toNat ≤ 90 := hbounds.2
      show c.toLower.val.toNat = c.toNat + 32
      rw [hval, UInt32.toNat_add, toNat_val]
      show (c.toNat + 32) % 2 ^ 32 = c.toNat + 32
      omega
  | surrogate n => contradiction

theorem isLower_toLower_eq_isAlpha (c : CodePoint) : c.toLower.isLower = c.isAlpha := by
  rw [Bool.eq_iff_iff]
  by_cases hupper : c.isUpper = true
  · have hto := toNat_toLower_of_isUpper hupper
    rw [isUpper_iff] at hupper
    rw [isLower_iff, isAlpha_iff]
    omega
  · rw [toLower_eq_of_not_isUpper hupper, isAlpha, Bool.eq_false_iff.mpr hupper,
      Bool.false_or]

@[simp] theorem isAlpha_toLower_eq_isAlpha (c : CodePoint) : c.toLower.isAlpha = c.isAlpha := by
  rw [Bool.eq_iff_iff]
  by_cases hupper : c.isUpper = true
  · have hto := toNat_toLower_of_isUpper hupper
    rw [isUpper_iff] at hupper
    rw [isAlpha_iff, isAlpha_iff]
    omega
  · rw [toLower_eq_of_not_isUpper hupper]

end CodePoint

namespace Text

/-- Every code point of a text is a character. -/
def isScalar (t : Text) : Bool :=
  t.all CodePoint.isScalar

@[simp] theorem isScalar_nil : isScalar [] = true := rfl

@[simp] theorem isScalar_cons {c : CodePoint} {t : Text} :
    isScalar (c :: t) = (c.isScalar && isScalar t) := rfl

@[simp] theorem isScalar_append {s t : Text} :
    isScalar (s ++ t) = (isScalar s && isScalar t) :=
  List.all_append

@[simp] theorem isScalar_map_char (l : List Char) : isScalar (l.map CodePoint.char) = true :=
  List.all_eq_true.mpr fun c hc => by
    obtain ⟨d, -, rfl⟩ := List.mem_map.mp hc
    rfl

theorem isScalar_iff {t : Text} : isScalar t = true ↔ ∀ c ∈ t, c.isScalar = true :=
  List.all_eq_true

theorem isScalar_of_subset {s t : Text} (h : s ⊆ t) (ht : isScalar t = true) :
    isScalar s = true :=
  isScalar_iff.mpr fun c hc => isScalar_iff.mp ht c (h hc)

end Text
end Lifeline

/-- The text of a string. -/
def String.toText (s : String) : Lifeline.Text :=
  s.toList.map .char

/-- The string of a text, with the replacement character for each surrogate. -/
def String.ofText (t : Lifeline.Text) : String :=
  String.ofList (t.map fun
    | .char c => c
    | .surrogate _ => '\uFFFD')

@[simp] theorem String.toText_eq (s : String) : s.toText = s.toList.map Lifeline.CodePoint.char :=
  rfl

theorem Lifeline.Text.isScalar_toText (s : String) : s.toText.isScalar = true :=
  isScalar_map_char s.toList
