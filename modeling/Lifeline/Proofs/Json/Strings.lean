import Lifeline.Json.Reader
import Lifeline.Json.Writer
import Lifeline.Proofs.Text.Utf8
import Mathlib.Tactic.SplitIfs

/-!
# Strings read back

The reader takes a string apart into units and joins them afterwards, since
half a surrogate pair may meet its other half.  The writer makes no such meeting
by accident: what it writes for one code point is read as units that join to this
code point, unless it is the first half of a pair and what stands behind begins
with the second.  `Spells` is this property, and a text in which no two halves
meet is read back code point by code point.
-/

namespace Lifeline.Json

open Text (hex hexDigit?)

variable {c e : CodePoint} {n : Nat} {t : Text}

/-! ## Hexadecimal digits -/

theorem hexDigit?_digitChar : ∀ d < 16, hexDigit? (.char (Nat.digitChar d)) = some d := by
  decide

/-- A number of 16 bits has four digits. -/
theorem hex_four (hn : n < 65536) :
    hex 4 n = [.char (Nat.digitChar (n / 4096)), .char (Nat.digitChar (n / 256 % 16)),
      .char (Nat.digitChar (n / 16 % 16)), .char (Nat.digitChar (n % 16))] := by
  have hzero : Nat.digitChar 0 = '0' := rfl
  unfold hex
  -- Zeros stand in front of as many digits as the number has.
  by_cases h1 : n < 16
  · have hdigits : Nat.toDigits 16 n = [Nat.digitChar n] := Nat.toDigits_of_lt_base h1
    rw [hdigits, show n / 4096 = 0 by omega, show n / 256 % 16 = 0 by omega,
      show n / 16 % 16 = 0 by omega, show n % 16 = n by omega, hzero]
    rfl
  by_cases h2 : n < 256
  · have hdigits : Nat.toDigits 16 n = [Nat.digitChar (n / 16), Nat.digitChar (n % 16)] := by
      rw [Nat.toDigits_of_base_le (by omega) (by omega), Nat.toDigits_of_lt_base (by omega)]
      rfl
    rw [hdigits, show n / 4096 = 0 by omega, show n / 256 % 16 = 0 by omega,
      show n / 16 % 16 = n / 16 by omega, hzero]
    rfl
  by_cases h3 : n < 4096
  · have hdigits : Nat.toDigits 16 n =
        [Nat.digitChar (n / 256), Nat.digitChar (n / 16 % 16), Nat.digitChar (n % 16)] := by
      rw [Nat.toDigits_of_base_le (by omega) (by omega),
        Nat.toDigits_of_base_le (by omega) (by omega), Nat.toDigits_of_lt_base (by omega),
        Nat.div_div_eq_div_mul]
      rfl
    rw [hdigits, show n / 4096 = 0 by omega, show n / 256 % 16 = n / 256 by omega, hzero]
    rfl
  · have hdigits : Nat.toDigits 16 n = [Nat.digitChar (n / 4096), Nat.digitChar (n / 256 % 16),
        Nat.digitChar (n / 16 % 16), Nat.digitChar (n % 16)] := by
      rw [Nat.toDigits_of_base_le (by omega) (by omega),
        Nat.toDigits_of_base_le (by omega) (by omega),
        Nat.toDigits_of_base_le (by omega) (by omega), Nat.toDigits_of_lt_base (by omega),
        Nat.div_div_eq_div_mul n 16 16, Nat.div_div_eq_div_mul]
      rfl
    rw [hdigits]
    rfl

/-- An escape sequence is read as its number. -/
theorem stringUnits?_escapeCode (hn : n < 65536) (rest : Text) :
    stringUnits? (escapeCode n ++ rest) =
      (stringUnits? rest).map fun p => (.code n :: p.1, p.2) := by
  have hnumber : hexNumber? (.char (Nat.digitChar (n / 4096)))
      (.char (Nat.digitChar (n / 256 % 16))) (.char (Nat.digitChar (n / 16 % 16)))
      (.char (Nat.digitChar (n % 16))) = some n := by
    unfold hexNumber?
    rw [hexDigit?_digitChar _ (by omega), hexDigit?_digitChar _ (by omega),
      hexDigit?_digitChar _ (by omega), hexDigit?_digitChar _ (by omega)]
    show some (((n / 4096 * 16 + n / 256 % 16) * 16 + n / 16 % 16) * 16 + n % 16) = some n
    congr 1
    omega
  unfold escapeCode
  rw [hex_four hn]
  simp only [List.cons_append, List.nil_append, stringUnits?, hnumber]

/-! ## Joining -/

/-- Units begin with the second half of a surrogate pair. -/
def startsLow : List StringUnit → Bool
  | .code n :: _ => isLowSurrogate n
  | _ => false

/-- A number stands for itself, unless it is the first half of a pair and the second one
follows. -/
theorem joinUnits_code {us : List StringUnit} (h : (isHighSurrogate n && startsLow us) = false) :
    joinUnits (.code n :: us) = .ofNat n :: joinUnits us := by
  cases us with
  | nil => rfl
  | cons u us =>
      cases u with
      | char c => rfl
      | code m =>
          have hpair : (isHighSurrogate n && isLowSurrogate m) = false := h
          simp only [joinUnits, hpair, Bool.false_eq_true, if_false]

/-- Two halves of a pair are one character. -/
theorem joinUnits_pair {high low : Nat} (hhigh : isHighSurrogate high = true)
    (hlow : isLowSurrogate low = true) (us : List StringUnit) :
    joinUnits (.code high :: .code low :: us) =
      .ofNat (joinSurrogates high low) :: joinUnits us := by
  simp only [joinUnits, hhigh, hlow, Bool.and_self, if_true]

/-! ## Code points -/

/-- A piece of a string is read as units of its own.  They join to one code point, unless the two
halves of a pair meet behind it, and begin with a second half only if this code point is one. -/
def Spells (written : Text) (c : CodePoint) : Prop :=
  ∃ us, (∀ rest, stringUnits? (written ++ rest) =
      (stringUnits? rest).map fun p => (us ++ p.1, p.2)) ∧
    (∀ vs, startsLow (us ++ vs) = true → isLowSurrogate c.toNat = true) ∧
    ∀ vs, (isHighSurrogate c.toNat && startsLow vs) = false →
      joinUnits (us ++ vs) = c :: joinUnits vs

/-- A character that needs no escape spells itself. -/
theorem spells_self (hcontrol : 32 ≤ c.toNat) (hquote : c ≠ '"') (hslash : c ≠ '\\') :
    Spells [c] c := by
  refine ⟨[.char c], ?_, fun vs h => absurd h Bool.false_ne_true, fun vs _ => rfl⟩
  intro rest
  have hplain : ¬ (c.toNat < 32 ∨ c = '\\') := by
    rintro (hlow | hslash')
    · omega
    · exact hslash hslash'
  show stringUnits? (c :: rest) = _
  rw [stringUnits?, if_neg hplain]
  · rfl
  · exact hquote
  · exact fun _ _ _ _ _ h => absurd h hslash
  · exact fun _ _ h => absurd h hslash

/-- A backslash and a letter other than `u` spell what the letter stands
for. -/
theorem spells_escape (he : escape? e = some c) (hu : e ≠ 'u') : Spells ['\\', e] c := by
  refine ⟨[.char c], ?_, fun vs h => absurd h Bool.false_ne_true, fun vs _ => rfl⟩
  intro rest
  show stringUnits? (.char '\\' :: e :: rest) = _
  rw [stringUnits?, he]
  · rfl
  · exact fun _ _ _ _ _ h => absurd h hu

/-- One number of 16 bits spells its code point. -/
theorem spells_escapeCode (hc : c.toNat < 0x10000) : Spells (escapeCode c.toNat) c := by
  refine ⟨[.code c.toNat], stringUnits?_escapeCode hc, fun vs h => h, ?_⟩
  intro vs hmeet
  rw [List.singleton_append, joinUnits_code hmeet, CodePoint.ofNat_toNat]

/-- A surrogate pair spells its character. -/
theorem spells_escapeChar (c : CodePoint) : Spells (escapeChar c) c := by
  unfold escapeChar
  simp only
  split
  · rename_i hc
    exact spells_escapeCode hc
  · rename_i hc
    have hbounds := c.toNat_lt
    have hhigh : isHighSurrogate (0xD800 + (c.toNat - 0x10000) / 1024) = true := by
      simp only [isHighSurrogate, Bool.and_eq_true, decide_eq_true_eq]
      omega
    have hlow : isLowSurrogate (0xDC00 + (c.toNat - 0x10000) % 1024) = true := by
      simp only [isLowSurrogate, Bool.and_eq_true, decide_eq_true_eq]
      omega
    refine ⟨[.code (0xD800 + (c.toNat - 0x10000) / 1024),
      .code (0xDC00 + (c.toNat - 0x10000) % 1024)], ?_, ?_, ?_⟩
    · intro rest
      rw [List.append_assoc, stringUnits?_escapeCode (by omega),
        stringUnits?_escapeCode (by omega), Option.map_map]
      rfl
    · intro vs hlow
      -- The units begin with a first half, which is no second one.
      have hfirst : isLowSurrogate (0xD800 + (c.toNat - 0x10000) / 1024) = true := hlow
      simp only [isLowSurrogate, Bool.and_eq_true, decide_eq_true_eq] at hfirst
      omega
    · intro vs _
      have hnumber : joinSurrogates (0xD800 + (c.toNat - 0x10000) / 1024)
          (0xDC00 + (c.toNat - 0x10000) % 1024) = c.toNat := by
        unfold joinSurrogates
        omega
      show joinUnits (.code _ :: .code _ :: vs) = _
      rw [joinUnits_pair hhigh hlow, hnumber, CodePoint.ofNat_toNat]

/-- What is written for a code point spells it. -/
theorem spells_stringChar (ascii : Bool) (c : CodePoint) : Spells (stringChar ascii c) c := by
  unfold stringChar
  split_ifs with h1 h2 h3 h4 h5 h6 h7 hcontrol hascii
  · subst h1
    exact spells_escape rfl (by decide)
  · subst h2
    exact spells_escape rfl (by decide)
  · subst h3
    exact spells_escape rfl (by decide)
  · subst h4
    exact spells_escape rfl (by decide)
  · subst h5
    exact spells_escape rfl (by decide)
  · subst h6
    exact spells_escape rfl (by decide)
  · subst h7
    exact spells_escape rfl (by decide)
  · exact spells_escapeCode (by omega)
  · exact spells_escapeChar c
  · exact spells_self (by omega) h1 h2

/-! ## Strings -/

/-- A text begins with the second half of a surrogate pair. -/
def headIsLow (t : Text) : Bool :=
  t.head?.any fun c => isLowSurrogate c.toNat

theorem headIsLow_cons : headIsLow (c :: t) = isLowSurrogate c.toNat := rfl

/-- No first half of a surrogate pair stands right in front of a second one. -/
def isUnsplit : Text → Bool
  | [] => true
  | c :: rest => !(isHighSurrogate c.toNat && headIsLow rest) && isUnsplit rest

theorem isUnsplit_cons_iff : isUnsplit (c :: t) = true ↔
    (isHighSurrogate c.toNat && headIsLow t) = false ∧ isUnsplit t = true := by
  rw [isUnsplit, Bool.and_eq_true, Bool.not_eq_true']

/-- A character is no half of a pair. -/
theorem not_surrogate_of_isScalar (hc : c.isScalar = true) :
    isHighSurrogate c.toNat = false ∧ isLowSurrogate c.toNat = false := by
  have hbounds := Utf8.bounds_of_isScalar hc
  simp only [isHighSurrogate, isLowSurrogate, Bool.and_eq_false_iff, decide_eq_false_iff_not]
  omega

theorem isUnsplit_of_isScalar (ht : t.isScalar = true) : isUnsplit t = true := by
  induction t with
  | nil => rfl
  | cons c t ih =>
      rw [Text.isScalar_cons, Bool.and_eq_true] at ht
      rw [isUnsplit_cons_iff, (not_surrogate_of_isScalar ht.1).1]
      exact ⟨rfl, ih ht.2⟩

/-- The code points of a string and its closing quote are read as the string,
whatever follows. -/
theorem string?_flatMap_stringChar (ascii : Bool) (ht : isUnsplit t = true) (rest : Text) :
    string? (t.flatMap (stringChar ascii) ++ .char '"' :: rest) = some (t, rest) := by
  have hunits : ∃ us, stringUnits? (t.flatMap (stringChar ascii) ++ .char '"' :: rest) =
      some (us, rest) ∧ joinUnits us = t ∧
        (startsLow us = true → headIsLow t = true) := by
    induction t with
    | nil => exact ⟨[], rfl, rfl, id⟩
    | cons c t ih =>
        obtain ⟨hmeet, htail⟩ := isUnsplit_cons_iff.mp ht
        obtain ⟨vs, hvs, hjoin, hhead⟩ := ih htail
        obtain ⟨us, hread, hlow, hspell⟩ := spells_stringChar ascii c
        -- Two halves that are apart in the text are not joined when they are read.
        have hapart : (isHighSurrogate c.toNat && startsLow vs) = false := by
          rw [Bool.and_eq_false_iff] at hmeet ⊢
          refine hmeet.imp id fun hfirst => ?_
          rw [← Bool.not_eq_true] at hfirst ⊢
          exact fun hstart => hfirst (hhead hstart)
        refine ⟨us ++ vs, ?_, by rw [hspell vs hapart, hjoin], hlow vs⟩
        rw [List.flatMap_cons, List.append_assoc, hread, hvs]
        rfl
  obtain ⟨us, hread, hjoin, -⟩ := hunits
  unfold string?
  rw [hread, ← hjoin]
  rfl

end Lifeline.Json
