import Lifeline.Share.Lzw
import Std.Data.HashMap.Lemmas

/-!
# The two dictionaries

The encoder finds codes for phrases in a codebook, the decoder finds phrases
for codes in an array, and the array is one phrase behind.  Three facts are
kept along a run of the encoder:

* `Valid`: known phrases have codes below the next one and consist of
  characters of the seed.  It makes the encoder succeed on texts of seed
  characters and bounds its codes, and a character outside the seed is caught
  at the next phrase, though it enters the codebook as the end of a learned
  phrase;
* `Agree`: a code of the codebook finds its phrase in the array;
* the phrase that the array lacks is the last one decoded and the first
  character of the one that the encoder is about to code.
-/

namespace Lifeline.Share.Lzw

variable {learned : Codebook} {phrases : Array Text} {next k : Nat} {w x prev rest : Text}
  {c : CodePoint} {codes : List Nat}

/-! ## Looking up -/

theorem codeOf?_singleton_eq_some (hc : c.toNat < seedSize) :
    codeOf? learned [c] = some c.toNat := by
  rw [codeOf?, if_pos hc]

/-- A phrase of two or more characters is looked up among the learned ones. -/
theorem codeOf?_insert (hw : w ≠ []) :
    codeOf? (learned.insert (w ++ [c]) next) x =
      if w ++ [c] = x then some next else codeOf? learned x := by
  obtain ⟨a, w, rfl⟩ := List.exists_cons_of_ne_nil hw
  match x with
  | [] => rfl
  | [b] => simp [codeOf?]
  | b :: b' :: x => simp [codeOf?, Std.HashMap.getElem?_insert]

theorem codeOf?_empty_of_two (a b : CodePoint) : codeOf? ∅ (a :: b :: x) = none := by
  simp [codeOf?]

theorem phrase?_push {code : Int} :
    phrase? (phrases.push x) code =
      if code = (seedSize + phrases.size : Nat) then some x else phrase? phrases code := by
  rw [phrase?, phrase?]
  by_cases hneg : code < 0
  · have hne : code ≠ (seedSize + phrases.size : Nat) := by omega
    rw [if_pos hneg, if_pos hneg, if_neg hne]
  · by_cases hseed : code < seedSize
    · have hne : code ≠ (seedSize + phrases.size : Nat) := by omega
      rw [if_neg hneg, if_neg hneg, if_pos hseed, if_pos hseed, if_neg hne]
    · have hindex : code.toNat - seedSize = phrases.size ↔
          code = (seedSize + phrases.size : Nat) := by omega
      rw [if_neg hneg, if_neg hneg, if_neg hseed, if_neg hseed, Array.getElem?_push]
      simp only [hindex]

/-- The code of the next phrase to be learned finds no phrase. -/
theorem phrase?_next : phrase? phrases (seedSize + phrases.size : Nat) = none := by
  have hneg : ¬ ((seedSize + phrases.size : Nat) : Int) < 0 := by omega
  have hseed : ¬ ((seedSize + phrases.size : Nat) : Int) < seedSize := by omega
  rw [phrase?, if_neg hneg, if_neg hseed, Int.toNat_natCast]
  simp

/-! ## What the encoder keeps -/

/-- The phrases of a codebook have codes below `next` and consist of characters
of the seed. -/
structure Valid (learned : Codebook) (next : Nat) : Prop where
  seedSize_le : seedSize ≤ next
  code_lt : ∀ {w k}, codeOf? learned w = some k → k < next
  narrow : ∀ {w k}, codeOf? learned w = some k → ∀ c ∈ w, c.toNat < seedSize

theorem valid_empty : Valid ∅ seedSize := by
  have hseed : ∀ {w : Text} {k : Nat}, codeOf? ∅ w = some k →
      ∃ c, w = [c] ∧ k = c.toNat ∧ c.toNat < seedSize := by
    intro w k hk
    match w with
    | [] => simp [codeOf?] at hk
    | [c] =>
        by_cases hc : c.toNat < seedSize
        · simp only [codeOf?, hc, if_true, Option.some.injEq] at hk
          exact ⟨c, rfl, hk.symm, hc⟩
        · simp [codeOf?, hc] at hk
    | a :: b :: w => simp [codeOf?_empty_of_two] at hk
  refine ⟨Nat.le_refl _, ?_, ?_⟩
  · intro w k hk
    obtain ⟨c, -, rfl, hc⟩ := hseed hk
    exact hc
  · intro w k hk
    obtain ⟨c, rfl, -, hc⟩ := hseed hk
    simpa using hc

theorem Valid.insert (h : Valid learned next) (hw : codeOf? learned w = some k)
    (hc : c.toNat < seedSize) : Valid (learned.insert (w ++ [c]) next) (next + 1) := by
  have hne : w ≠ [] := by
    rintro rfl
    simp [codeOf?] at hw
  refine ⟨Nat.le_succ_of_le h.seedSize_le, ?_, ?_⟩
  · intro x j hx
    rw [codeOf?_insert hne] at hx
    split at hx
    · obtain rfl := Option.some.inj hx
      omega
    · exact Nat.lt_succ_of_lt (h.code_lt hx)
  · intro x j hx
    rw [codeOf?_insert hne] at hx
    split at hx
    · rename_i hsame
      subst hsame
      intro b hb
      rcases List.mem_append.mp hb with hb | hb
      · exact h.narrow hw b hb
      · rwa [List.mem_singleton.mp hb]
    · exact h.narrow hx

/-- Behind a known phrase a text of seed characters has codes, and the code at
each place is one that the decoder can know there. -/
theorem exists_compressFrom_eq_ok (h : Valid learned next) (hw : codeOf? learned w = some k)
    (hrest : ∀ c ∈ rest, c.toNat < seedSize) :
    ∃ codes, compressFrom learned next w rest = .ok codes ∧
      ∀ (i : Nat) (hi : i < codes.length), codes[i] < next + i := by
  induction rest generalizing learned next w k with
  | nil =>
      have hne : w.isEmpty = false := by
        cases w with
        | nil => simp [codeOf?] at hw
        | cons a w => rfl
      refine ⟨[k], by simp [compressFrom, hne, hw], ?_⟩
      intro i hi
      obtain rfl : i = 0 := by simpa using hi
      exact h.code_lt hw
  | cons c rest ih =>
      have hc : c.toNat < seedSize := hrest c List.mem_cons_self
      have hbehind : ∀ b ∈ rest, b.toNat < seedSize :=
        fun b hb => hrest b (List.mem_cons_of_mem c hb)
      cases hlonger : codeOf? learned (w ++ [c]) with
      | some j =>
          obtain ⟨codes, hcodes, hbound⟩ := ih h hlonger hbehind
          exact ⟨codes, by simp [compressFrom, hlonger, hcodes], hbound⟩
      | none =>
          -- The phrase is coded here; the rest has one more phrase to choose from.
          obtain ⟨codes, hcodes, hbound⟩ :=
            ih (h.insert hw hc) (codeOf?_singleton_eq_some hc) hbehind
          refine ⟨k :: codes, by simp [compressFrom, hlonger, hw, hcodes], ?_⟩
          intro i hi
          cases i with
          | zero => exact h.code_lt hw
          | succ i =>
              have hi' := hbound i (by simpa using hi)
              rw [List.getElem_cons_succ]
              omega

/-- A character outside the seed that is still to be coded has no code, unless
it is the beginning of a learned phrase. -/
theorem compressFrom_singleton_eq_error (hc : seedSize ≤ c.toNat)
    (hlearned : ∀ d, codeOf? learned [c, d] = none) :
    compressFrom learned next [c] rest = .error (.outsideSeed [c]) := by
  have hcode : codeOf? learned [c] = none := by
    rw [codeOf?, if_neg (Nat.not_lt.mpr hc)]
  cases rest with
  | nil => simp [compressFrom, hcode]
  | cons d rest => simp [compressFrom, hcode, hlearned d]

/-- A text with a character outside the seed has no codes. -/
theorem exists_compressFrom_eq_error (h : Valid learned next)
    (hw : w = [] ∨ ∃ k, codeOf? learned w = some k) (hwide : ∃ c ∈ rest, seedSize ≤ c.toNat) :
    ∃ phrase, compressFrom learned next w rest = .error (.outsideSeed phrase) := by
  induction rest generalizing learned next w with
  | nil => simp at hwide
  | cons c rest ih =>
      have hbehind : c.toNat < seedSize → ∃ b ∈ rest, seedSize ≤ b.toNat := by
        intro hc
        obtain ⟨b, hb, hbwide⟩ := hwide
        rcases List.mem_cons.mp hb with rfl | hb
        · omega
        · exact ⟨b, hb, hbwide⟩
      cases hlonger : codeOf? learned (w ++ [c]) with
      | some j =>
          -- A known phrase is narrow, so the wide character stands behind it.
          have hc : c.toNat < seedSize := h.narrow hlonger c (by simp)
          obtain ⟨phrase, herror⟩ := ih h (Or.inr ⟨j, hlonger⟩) (hbehind hc)
          exact ⟨phrase, by simp [compressFrom, hlonger, herror]⟩
      | none =>
          rcases hw with rfl | ⟨k, hk⟩
          · have hnil : codeOf? learned [] = none := rfl
            exact ⟨[], by simp only [compressFrom, hlonger, hnil, Option.isSome_none,
              Bool.false_eq_true, if_false]⟩
          by_cases hc : c.toNat < seedSize
          · have hcode : codeOf? (learned.insert (w ++ [c]) next) [c] = some c.toNat :=
              codeOf?_singleton_eq_some hc
            obtain ⟨phrase, herror⟩ := ih (h.insert hk hc) (Or.inr ⟨_, hcode⟩) (hbehind hc)
            exact ⟨phrase, by simp [compressFrom, hlonger, hk, herror]⟩
          · -- The phrase just learned ends with the wide character but does not begin with it.
            have hne : w ≠ [] := by
              rintro rfl
              simp [codeOf?] at hk
            have hnone : ∀ d, codeOf? (learned.insert (w ++ [c]) next) [c, d] = none := by
              intro d
              have hdiffer : w ++ [c] ≠ [c, d] := by
                intro hsame
                obtain ⟨rfl, -⟩ : w = [c] ∧ [c] = [d] :=
                  List.append_inj' (by simpa using hsame) rfl
                exact hc (h.narrow hk c List.mem_cons_self)
              rw [codeOf?_insert hne, if_neg hdiffer]
              cases hd : codeOf? learned [c, d] with
              | none => rfl
              | some j => exact absurd (h.narrow hd c List.mem_cons_self) hc
            have herror : compressFrom (learned.insert (w ++ [c]) next) (next + 1) [c] rest =
                .error (.outsideSeed [c]) :=
              compressFrom_singleton_eq_error (Nat.le_of_not_lt hc) hnone
            exact ⟨[c], by simp [compressFrom, hlonger, hk, herror]⟩

/-! ## The decoder one phrase behind -/

/-- A code of the codebook finds its phrase in the array. -/
def Agree (learned : Codebook) (phrases : Array Text) : Prop :=
  ∀ {w : Text} {k : Nat}, codeOf? learned w = some k → phrase? phrases k = some w

theorem agree_empty : Agree ∅ #[] := by
  intro w k hk
  match w with
  | [] => simp [codeOf?] at hk
  | [c] =>
      have hc : c.toNat < seedSize := valid_empty.narrow hk c List.mem_cons_self
      obtain rfl : c.toNat = k := by
        rwa [codeOf?_singleton_eq_some hc, Option.some.injEq] at hk
      have hneg : ¬ (c.toNat : Int) < 0 := by omega
      have hseed : (c.toNat : Int) < seedSize := by omega
      rw [phrase?, if_neg hneg, if_pos hseed, Int.toNat_natCast, CodePoint.ofNat_toNat]
  | a :: b :: w => simp [codeOf?_empty_of_two] at hk

theorem Agree.insert (h : Agree learned phrases) (hw : w ≠ [])
    (hnext : next = seedSize + phrases.size) :
    Agree (learned.insert (w ++ [c]) next) (phrases.push (w ++ [c])) := by
  intro x k hk
  rw [codeOf?_insert hw] at hk
  rw [phrase?_push]
  split at hk
  · rename_i hsame
    obtain rfl := Option.some.inj hk
    rw [if_pos (by rw [hnext]), hsame]
  · have hold := h hk
    have hne : (k : Int) ≠ (seedSize + phrases.size : Nat) := by
      intro heq
      rw [heq, phrase?_next] at hold
      contradiction
    rw [if_neg hne, hold]

/-- The decoder finds the phrase of a code also when it has yet to learn it,
for then the phrase begins and ends with the same character. -/
theorem nextPhrase?_eq_some (hprev : prev ≠ [])
    (hk : phrase? (phrases.push (prev ++ w.take 1)) k = some w) :
    nextPhrase? phrases prev k = some w := by
  rw [phrase?_push] at hk
  split at hk
  · rename_i hcode
    have hw : prev ++ w.take 1 = w := Option.some.inj hk
    obtain ⟨a, tail, rfl⟩ := List.exists_cons_of_ne_nil hprev
    have hfirst : w.take 1 = [a] := by rw [← hw]; rfl
    rw [nextPhrase?, hcode, phrase?_next]
    simpa [hfirst] using hw
  · rw [nextPhrase?, hk]

/-- Behind the phrase `prev` the decoder reads the phrase that the encoder is
about to code, and all that follows. -/
theorem decompressFrom_of_compressFrom (hprev : prev ≠ []) (hw : w ≠ [])
    (hagree : Agree learned (phrases.push (prev ++ w.take 1)))
    (hnext : next = seedSize + (phrases.size + 1))
    (hcodes : compressFrom learned next w rest = .ok codes) :
    decompressFrom phrases prev (codes.map Int.ofNat) = .ok (w ++ rest) := by
  induction rest generalizing learned next w phrases prev codes with
  | nil =>
      have hempty : w.isEmpty = false := by simpa using hw
      simp only [compressFrom, hempty, Bool.false_eq_true, if_false] at hcodes
      cases hk : codeOf? learned w with
      | none => simp [hk] at hcodes
      | some k =>
          simp only [hk, Except.ok.injEq] at hcodes
          subst hcodes
          have hphrase := nextPhrase?_eq_some hprev (hagree hk)
          simp [decompressFrom, hphrase]
  | cons c rest ih =>
      simp only [compressFrom] at hcodes
      cases hlonger : codeOf? learned (w ++ [c]) with
      | some j =>
          -- The encoder lengthens its phrase, whose first character stays.
          simp only [hlonger, Option.isSome_some, if_true] at hcodes
          have hfirst : (w ++ [c]).take 1 = w.take 1 := by
            obtain ⟨a, tail, rfl⟩ := List.exists_cons_of_ne_nil hw
            rfl
          have hrest := ih hprev (by simp) (hfirst ▸ hagree) hnext hcodes
          simpa using hrest
      | none =>
          cases hk : codeOf? learned w with
          | none => simp [hlonger, hk] at hcodes
          | some k =>
              simp only [hlonger, hk, Option.isSome_none, Bool.false_eq_true, if_false] at hcodes
              split at hcodes
              · rename_i later hlater
                -- The decoder learns what the encoder learned with the code before.
                obtain rfl : k :: later = codes := Except.ok.inj hcodes
                have hphrase := nextPhrase?_eq_some hprev (hagree hk)
                have hsize : next = seedSize + (phrases.push (prev ++ w.take 1)).size := by
                  rw [Array.size_push, hnext]
                have hlearned : Agree (learned.insert (w ++ [c]) next)
                    ((phrases.push (prev ++ w.take 1)).push (w ++ [c].take 1)) :=
                  hagree.insert hw hsize
                have hbehind := ih hw (by simp) hlearned (by omega) hlater
                rw [List.map_cons, decompressFrom, Int.ofNat_eq_natCast, hphrase]
                simp [hbehind]
              · simp at hcodes

/-- The first code is that of the first character, and if there is another one
it is the first phrase that is still to be coded. -/
theorem exists_of_compress_cons (hcodes : compress (c :: rest) = .ok codes) :
    ∃ later, codes = c.toNat :: later ∧ c.toNat < seedSize ∧ (rest = [] → later = []) ∧
      ∀ d tail, rest = d :: tail →
        compressFrom ((∅ : Codebook).insert ([c] ++ [d]) seedSize) (seedSize + 1) [d] tail =
          .ok later := by
  have hnil : codeOf? (∅ : Codebook) [] = none := rfl
  simp only [compress, compressFrom, List.nil_append, hnil] at hcodes
  cases hk : codeOf? ∅ [c] with
  | none => simp [hk] at hcodes
  | some k =>
      have hc : c.toNat < seedSize := valid_empty.narrow hk c List.mem_cons_self
      obtain rfl : c.toNat = k := by
        rwa [codeOf?_singleton_eq_some hc, Option.some.injEq] at hk
      simp only [hk, Option.isSome_some, if_true] at hcodes
      -- One character is flushed at the end; of two the first is coded, since no pair is in the
      -- book.
      cases rest with
      | nil =>
          simp only [compressFrom, hk, List.isEmpty_cons, Bool.false_eq_true, if_false,
            Except.ok.injEq] at hcodes
          exact ⟨[], hcodes.symm, hc, fun _ => rfl, by simp⟩
      | cons d rest =>
          have hpair : codeOf? ∅ ([c] ++ [d]) = none := codeOf?_empty_of_two c d
          simp only [compressFrom, hpair, hk, Option.isSome_none, Bool.false_eq_true,
            if_false] at hcodes
          split at hcodes
          · rename_i later hlater
            refine ⟨later, (Except.ok.inj hcodes).symm, hc, by simp, ?_⟩
            rintro d' tail ⟨rfl, rfl⟩
            exact hlater
          · simp at hcodes

/-- The decoder reads back what the encoder writes. -/
theorem decompress_of_compress {t : Text} (hcodes : compress t = .ok codes) :
    decompress (codes.map Int.ofNat) = .ok t := by
  cases t with
  | nil =>
      obtain rfl : [] = codes := Except.ok.inj hcodes
      rfl
  | cons c rest =>
      obtain ⟨later, rfl, hc, hlast, hmore⟩ := exists_of_compress_cons hcodes
      have hphrase : phrase? #[] (c.toNat : Int) = some [c] :=
        agree_empty (codeOf?_singleton_eq_some hc)
      rw [List.map_cons, decompress, Int.ofNat_eq_natCast, hphrase]
      -- The decoder takes the first code for itself; from the second on it is one phrase behind.
      cases rest with
      | nil =>
          obtain rfl := hlast rfl
          rfl
      | cons d tail =>
          have hlearned : Agree ((∅ : Codebook).insert ([c] ++ [d]) seedSize)
              ((#[] : Array Text).push ([c] ++ [d].take 1)) :=
            agree_empty.insert (by simp) rfl
          have hbehind := decompressFrom_of_compressFrom (by simp) (by simp) hlearned rfl
            (hmore d tail rfl)
          simp [hbehind]

/-! ## The texts with codes -/

/-- A text of seed characters has codes. -/
theorem exists_compress_eq_ok {t : Text} (ht : ∀ c ∈ t, c.toNat < seedSize) :
    ∃ codes, compress t = .ok codes ∧
      ∀ (i : Nat) (hi : i < codes.length), codes[i] < seedSize + i := by
  cases t with
  | nil => exact ⟨[], rfl, by simp⟩
  | cons c rest =>
      have hc : c.toNat < seedSize := ht c List.mem_cons_self
      have hcode : codeOf? ∅ [c] = some c.toNat := codeOf?_singleton_eq_some hc
      obtain ⟨codes, hcodes, hbound⟩ := exists_compressFrom_eq_ok valid_empty hcode
        fun b hb => ht b (List.mem_cons_of_mem c hb)
      exact ⟨codes, by simp [compress, compressFrom, hcode, hcodes], hbound⟩

/-- A text with codes consists of seed characters. -/
theorem lt_seedSize_of_compress {t : Text} (hcodes : compress t = .ok codes) :
    ∀ c ∈ t, c.toNat < seedSize := by
  intro c hc
  refine Nat.lt_of_not_le fun hwide => ?_
  have herror : ∃ phrase, compress t = .error (.outsideSeed phrase) :=
    exists_compressFrom_eq_error valid_empty (Or.inl rfl) ⟨c, hc, hwide⟩
  simp [hcodes] at herror

/-- The code at each place is below the number of phrases known there. -/
theorem getElem_lt_of_compress {t : Text} (hcodes : compress t = .ok codes) {i : Nat}
    (hi : i < codes.length) : codes[i] < seedSize + i := by
  obtain ⟨codes', hcodes', hbound⟩ := exists_compress_eq_ok (lt_seedSize_of_compress hcodes)
  obtain rfl : codes = codes' := Except.ok.inj (hcodes.symm.trans hcodes')
  exact hbound i hi

/-- A text of seed characters has codes, each below the number of phrases known
at its place, and they are read back as the text; a text with any other
character has no codes. -/
theorem compress_roundTrip (t : Text) :
    ((∀ c ∈ t, c.toNat ≤ 0xFF) →
      ∃ codes, compress t = .ok codes ∧
        (∀ (i : Nat) (hi : i < codes.length), codes[i] < 256 + i) ∧
        decompress (codes.map Int.ofNat) = .ok t) ∧
    ((∃ c ∈ t, 0xFF < c.toNat) → ∃ phrase, compress t = .error (.outsideSeed phrase)) := by
  constructor
  · intro ht
    have hseed : ∀ c ∈ t, c.toNat < seedSize := fun c hc => Nat.lt_succ_of_le (ht c hc)
    obtain ⟨codes, hcodes, hbound⟩ := exists_compress_eq_ok hseed
    exact ⟨codes, hcodes, hbound, decompress_of_compress hcodes⟩
  · intro hwide
    have hseed : ∃ c ∈ t, seedSize ≤ c.toNat := by
      obtain ⟨c, hc, hwide⟩ := hwide
      exact ⟨c, hc, Nat.succ_le_of_lt hwide⟩
    exact exists_compressFrom_eq_error valid_empty (Or.inl rfl) hseed

/-- The decoder meets the code of the phrase that is being learned in the first
text; the second one ends with a character outside the seed. -/
theorem compress_repeated_and_wide :
    (∃ codes, compress "ABABABA".toText = .ok codes ∧
        decompress (codes.map Int.ofNat) = .ok "ABABABA".toText) ∧
      ∃ phrase, compress "aé日".toText = .error (.outsideSeed phrase) := by
  have hnarrow : ∀ c ∈ "ABABABA".toText, c.toNat ≤ 0xFF := by decide
  have hwide : ∃ c ∈ "aé日".toText, 0xFF < c.toNat := ⟨.char '日', by simp, by decide⟩
  obtain ⟨codes, hcodes, -, hback⟩ := (compress_roundTrip "ABABABA".toText).1 hnarrow
  exact ⟨⟨codes, hcodes, hback⟩, (compress_roundTrip "aé日".toText).2 hwide⟩

end Lifeline.Share.Lzw
