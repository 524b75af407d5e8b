import Lifeline.Proofs.Store.Identifiers

/-!
# Identifiers are slugs

An identifier is made from a name in four steps: each run of characters that are
no ASCII letters or digits becomes one hyphen, the hyphens at the ends go, capitals
become small, and nothing at all becomes the word `diagram`.  So an identifier is a
slug, small letters and digits with single hyphens between them, and a slug is what
the four steps leave as it is.
-/

namespace Lifeline

variable {p : CodePoint → Bool} {c : CodePoint} {t rest word name : Text} {words : List Text}

/-- A character of a slug besides the hyphens: one of the letters from a to z, or a
digit. -/
def isSlugChar (c : CodePoint) : Bool :=
  c.isLower || c.isDigit

/-- A text of some characters with hyphens between them: none at the ends, and no two
in a row. -/
structure Hyphenated (p : CodePoint → Bool) (t : Text) : Prop where
  ne_nil : t ≠ []
  chars : ∀ c ∈ t, p c = true ∨ c = '-'
  head : t.head? ≠ some (.char '-')
  last : t.getLast? ≠ some (.char '-')
  apart : ¬ "--".toText <:+: t

/-! ## Steps -/

/-- Each run of characters that are no ASCII letters or digits becomes one hyphen.
The flag says that the character before belongs to such a run. -/
def hyphenateFrom : Bool → Text → Text
  | _, [] => []
  | inGap, c :: rest =>
      if c.isAlphanum then
        c :: hyphenateFrom false rest
      else if inGap then
        hyphenateFrom true rest
      else
        .char '-' :: hyphenateFrom true rest

/-- A text with hyphens for what is no ASCII letter or digit. -/
def hyphenate (t : Text) : Text :=
  hyphenateFrom false t

/-- Drops the hyphens in front. -/
def dropHyphens (t : Text) : Text :=
  t.dropWhile (· == '-')

/-- Drops the hyphens at both ends. -/
def trimHyphens (t : Text) : Text :=
  (dropHyphens (dropHyphens t).reverse).reverse

/-! ## Words and hyphens -/

section

variable (hhyphen : p '-' = false)

include hhyphen

theorem ne_hyphen (hc : p c = true) : c ≠ '-' := by
  rintro rfl
  rw [hhyphen] at hc
  contradiction

theorem hyphenated_singleton (hc : p c = true) : Hyphenated p [c] where
  ne_nil := List.cons_ne_nil _ _
  chars := by simp [hc]
  head := by simpa using ne_hyphen hhyphen hc
  last := by simpa using ne_hyphen hhyphen hc
  apart := fun h => absurd h.length_le (by simp)

theorem Hyphenated.cons (hc : p c = true) (h : Hyphenated p t) : Hyphenated p (c :: t) where
  ne_nil := List.cons_ne_nil _ _
  chars := List.forall_mem_cons.mpr ⟨Or.inl hc, h.chars⟩
  head := by simpa using ne_hyphen hhyphen hc
  last := by
    rw [List.getLast?_cons_of_ne_nil h.ne_nil]
    exact h.last
  apart := by
    intro hinside
    rcases List.infix_cons_iff.mp hinside with hbegin | hdeep
    · exact ne_hyphen hhyphen hc (List.cons_prefix_cons.mp hbegin).1.symm
    · exact h.apart hdeep

theorem Hyphenated.cons_hyphen (hc : p c = true) (h : Hyphenated p t) :
    Hyphenated p (c :: .char '-' :: t) where
  ne_nil := List.cons_ne_nil _ _
  chars := List.forall_mem_cons.mpr
    ⟨Or.inl hc, List.forall_mem_cons.mpr ⟨Or.inr rfl, h.chars⟩⟩
  head := by simpa using ne_hyphen hhyphen hc
  last := by
    rw [List.getLast?_cons_of_ne_nil (List.cons_ne_nil _ _), List.getLast?_cons_of_ne_nil h.ne_nil]
    exact h.last
  apart := by
    intro hinside
    rcases List.infix_cons_iff.mp hinside with hbegin | hdeep
    · exact ne_hyphen hhyphen hc (List.cons_prefix_cons.mp hbegin).1.symm
    · rcases List.infix_cons_iff.mp hdeep with hbegin | hdeep
      · obtain ⟨more, hmore⟩ := (List.cons_prefix_cons.mp hbegin).2
        exact h.head (by rw [← hmore]; rfl)
      · exact h.apart hdeep

theorem Hyphenated.append_left (hword : ∀ c ∈ word, p c = true) (h : Hyphenated p t) :
    Hyphenated p (word ++ t) := by
  induction word with
  | nil => exact h
  | cons c word ih =>
      obtain ⟨hc, hrest⟩ := List.forall_mem_cons.mp hword
      exact (ih hrest).cons hhyphen hc

/-- Words that are joined by hyphens have single hyphens between them. -/
theorem hyphenated_join (hne : words ≠ [])
    (hwords : ∀ word ∈ words, word ≠ [] ∧ ∀ c ∈ word, p c = true) :
    Hyphenated p (Text.join ['-'] words) := by
  induction words with
  | nil => contradiction
  | cons word words ih =>
      obtain ⟨⟨hnil, hword⟩, hrest⟩ := List.forall_mem_cons.mp hwords
      -- What follows a word is put behind its last character.
      obtain ⟨front, c, rfl⟩ := (List.eq_nil_or_concat' word).resolve_left hnil
      rw [List.forall_mem_append, List.forall_mem_singleton] at hword
      cases words with
      | nil => exact (hyphenated_singleton hhyphen hword.2).append_left hhyphen hword.1
      | cons next words =>
          rw [Text.join, List.append_assoc]
          exact ((ih (List.cons_ne_nil _ _) hrest).cons_hyphen hhyphen hword.2).append_left hhyphen
            hword.1

end

/-! ## Trimming -/

theorem dropHyphens_eq_self (hhead : t.head? ≠ some (.char '-')) : dropHyphens t = t := by
  cases t with
  | nil => rfl
  | cons c t => exact List.dropWhile_cons_of_neg (by simpa using hhead)

/-- Hyphens around a text that has none at its ends are what trimming drops. -/
theorem trimHyphens_append {front back : Text} (hfront : ∀ c ∈ front, c = '-')
    (hback : ∀ c ∈ back, c = '-') (h : Hyphenated p t) :
    trimHyphens (front ++ (t ++ back)) = t := by
  have hhead : (t ++ back).head? ≠ some (.char '-') := by
    rw [List.head?_append_of_ne_nil _ h.ne_nil]
    exact h.head
  have hlast : t.reverse.head? ≠ some (.char '-') := by
    rw [List.head?_reverse]
    exact h.last
  have hdropped : dropHyphens (front ++ (t ++ back)) = t ++ back :=
    (List.dropWhile_append_of_pos fun c hc => beq_iff_eq.mpr (hfront c hc)).trans
      (dropHyphens_eq_self hhead)
  have hturned : dropHyphens (back.reverse ++ t.reverse) = t.reverse :=
    (List.dropWhile_append_of_pos fun c hc =>
      beq_iff_eq.mpr (hback c (List.mem_reverse.mp hc))).trans (dropHyphens_eq_self hlast)
  rw [trimHyphens, hdropped, List.reverse_append, hturned, List.reverse_reverse]

/-! ## Runs of a name -/

theorem alphanumericRuns_append_cons (hc : c.isAlphanum = false) (word t : Text) :
    alphanumericRuns (word ++ c :: t) = alphanumericRuns word ++ alphanumericRuns t := by
  rw [alphanumericRuns, Text.splitWhere_append_cons (by simp [hc]), List.filter_append]
  rfl

theorem alphanumericRuns_of_forall (hne : word ≠ []) (hword : ∀ c ∈ word, c.isAlphanum = true) :
    alphanumericRuns word = [word] := by
  have hpiece : Text.splitWhere (fun c => !c.isAlphanum) word = [word] :=
    Text.splitWhere_of_forall fun c hc => by simp [hword c hc]
  rw [alphanumericRuns, hpiece, List.filter_eq_self]
  simpa using hne

/-- A text is the runs of another one with hyphens between them, and perhaps a hyphen
behind the last of them. -/
def JoinsRuns (u t : Text) : Prop :=
  ∃ back, u = Text.join ['-'] (alphanumericRuns t) ++ back ∧
    (back = [] ∨ alphanumericRuns t ≠ [] ∧ back = ['-'])

theorem joinsRuns_word (hword : ∀ c ∈ word, c.isAlphanum = true) : JoinsRuns word word := by
  refine ⟨[], ?_, Or.inl rfl⟩
  by_cases hnil : word = []
  · rw [hnil]
    rfl
  · rw [alphanumericRuns_of_forall hnil hword, Text.join, List.append_nil]

/-- A gap in front makes no difference. -/
theorem JoinsRuns.cons_gap {u : Text} (h : JoinsRuns u t) (hc : c.isAlphanum = false) :
    JoinsRuns u (c :: t) := by
  have hruns : alphanumericRuns (c :: t) = alphanumericRuns t :=
    alphanumericRuns_append_cons hc [] t
  rwa [JoinsRuns, hruns]

/-- A hyphen stands for a gap behind a word. -/
theorem JoinsRuns.append_gap {u : Text} (h : JoinsRuns u t) (hne : word ≠ [])
    (hword : ∀ c ∈ word, c.isAlphanum = true) (hc : c.isAlphanum = false) :
    JoinsRuns (word ++ .char '-' :: u) (word ++ c :: t) := by
  obtain ⟨back, rfl, hback⟩ := h
  rw [JoinsRuns, alphanumericRuns_append_cons hc, alphanumericRuns_of_forall hne hword,
    List.singleton_append]
  cases hruns : alphanumericRuns t with
  | nil =>
      -- Nothing follows the gap, so its hyphen is the one at the end.
      have hend : back = [] := hback.resolve_right fun h => h.1 hruns
      exact ⟨['-'], by rw [hend]; rfl, Or.inr ⟨List.cons_ne_nil _ _, rfl⟩⟩
  | cons run runs =>
      refine ⟨back, ?_, hback.imp_right fun h => ⟨List.cons_ne_nil _ _, h.2⟩⟩
      rw [Text.join, List.append_assoc, List.append_assoc]
      rfl

/-- Hyphenating a text joins its runs.  The word is the part of a run that was read
already; there is none behind a gap, and this is what the flag says. -/
theorem joinsRuns_append_hyphenateFrom (hword : ∀ c ∈ word, c.isAlphanum = true) (t : Text) :
    JoinsRuns (word ++ hyphenateFrom word.isEmpty t) (word ++ t) := by
  induction t generalizing word with
  | nil =>
      rw [hyphenateFrom, List.append_nil]
      exact joinsRuns_word hword
  | cons c t ih =>
      by_cases hc : c.isAlphanum = true
      · have hlonger : ∀ d ∈ word ++ [c], d.isAlphanum = true :=
          List.forall_mem_append.mpr ⟨hword, List.forall_mem_singleton.mpr hc⟩
        have hopen : (word ++ [c]).isEmpty = false := by simp
        have hrest := ih hlonger
        rw [List.append_assoc, List.append_assoc, hopen] at hrest
        rwa [hyphenateFrom, if_pos hc]
      · have hgap : c.isAlphanum = false := eq_false_of_ne_true hc
        have hbehind : JoinsRuns (hyphenateFrom true t) t := ih (List.forall_mem_nil _)
        rw [hyphenateFrom, if_neg hc]
        -- The first mark behind a word becomes its hyphen; further ones are passed over.
        by_cases hnil : word = []
        · rw [hnil]
          exact hbehind.cons_gap hgap
        · rw [List.isEmpty_eq_false_iff.mpr hnil]
          exact hbehind.append_gap hnil hword hgap

/-- A text begins as if a gap stood in front, but for the hyphen of a gap at its
beginning. -/
theorem hyphenate_eq (t : Text) :
    ∃ front, hyphenate t = front ++ hyphenateFrom true t ∧ (front = [] ∨ front = ['-']) := by
  cases t with
  | nil => exact ⟨[], rfl, Or.inl rfl⟩
  | cons c t =>
      by_cases hc : c.isAlphanum = true
      · exact ⟨[], by simp [hyphenate, hyphenateFrom, hc], Or.inl rfl⟩
      · exact ⟨['-'], by simp [hyphenate, hyphenateFrom, hc], Or.inr rfl⟩

/-- Hyphenated and trimmed, a text is its runs with single hyphens between them. -/
theorem trimHyphens_hyphenate (t : Text) :
    trimHyphens (hyphenate t) = Text.join ['-'] (alphanumericRuns t) := by
  have hhyphens : ∀ {u : Text}, u = [] ∨ u = ['-'] → ∀ c ∈ u, c = '-' := by
    rintro u (rfl | rfl) <;> simp
  obtain ⟨front, hfront, hgap⟩ := hyphenate_eq t
  obtain ⟨back, htext, hback⟩ : JoinsRuns (hyphenateFrom true t) t :=
    joinsRuns_append_hyphenateFrom (List.forall_mem_nil _) t
  rw [hfront, htext]
  by_cases hruns : alphanumericRuns t = []
  · have hend : back = [] := hback.resolve_right fun h => h.1 hruns
    rw [hruns, hend]
    rcases hgap with rfl | rfl <;> rfl
  · exact trimHyphens_append (hhyphens hgap) (hhyphens (hback.imp_right And.right))
      (hyphenated_join (by decide) hruns fun run hrun => mem_alphanumericRuns hrun)

/-- The four steps from a name to its identifier. -/
theorem diagramId_eq_trimHyphens (name : Text) :
    diagramId name = if trimHyphens (hyphenate name) = [] then "diagram".toText
      else (trimHyphens (hyphenate name)).map CodePoint.toLower := by
  rw [trimHyphens_hyphenate, diagramId]
  cases hruns : alphanumericRuns name with
  | nil => rfl
  | cons run runs =>
      have hwords : ∀ word ∈ run :: runs, word ≠ [] ∧ ∀ c ∈ word, c.isAlphanum = true :=
        fun word hword => mem_alphanumericRuns (hruns ▸ hword)
      exact (if_neg (hyphenated_join (by decide) (List.cons_ne_nil _ _) hwords).ne_nil).symm

/-! ## Slugs -/

theorem isAlphanum_of_isSlugChar (hc : isSlugChar c = true) : c.isAlphanum = true := by
  simp only [isSlugChar, Bool.or_eq_true] at hc
  simp only [CodePoint.isAlphanum, CodePoint.isAlpha, Bool.or_eq_true]
  exact hc.imp_left Or.inr

theorem toLower_eq_self_of_isSlugChar (hc : isSlugChar c = true) : c.toLower = c := by
  refine CodePoint.toLower_eq_of_not_isUpper ?_
  rw [isSlugChar, Bool.or_eq_true] at hc
  rcases hc with hlower | hdigit
  · exact CodePoint.not_isUpper_of_isLower hlower
  · rw [CodePoint.isDigit_iff] at hdigit
    rw [CodePoint.isUpper_iff]
    omega

theorem isSlugChar_toLower (hc : c.isAlphanum = true) : isSlugChar c.toLower = true := by
  rw [CodePoint.isAlphanum, Bool.or_eq_true] at hc
  rcases hc with halpha | hdigit
  · rw [isSlugChar, CodePoint.isLower_toLower_eq_isAlpha, halpha, Bool.true_or]
  · have hslug : isSlugChar c = true := by rw [isSlugChar, hdigit, Bool.or_true]
    rwa [toLower_eq_self_of_isSlugChar hslug]

/-- The words that an identifier keeps are small. -/
theorem isSlugChar_of_mem_nameWords (hword : word ∈ nameWords name) :
    ∀ c ∈ word, isSlugChar c = true := by
  unfold nameWords at hword
  split at hword
  · rw [List.mem_singleton.mp hword]
    exact List.all_eq_true.mp (by decide : "diagram".toText.all isSlugChar = true)
  · obtain ⟨run, hrun, rfl⟩ := List.mem_map.mp hword
    intro c hc
    obtain ⟨b, hb, rfl⟩ := List.mem_map.mp hc
    exact isSlugChar_toLower ((mem_alphanumericRuns hrun).2 b hb)

/-- A text of letters, digits and single hyphens has nothing to hyphenate. -/
theorem hyphenateFrom_eq_self {inGap : Bool} (hchars : ∀ c ∈ t, c.isAlphanum = true ∨ c = '-')
    (hapart : ¬ "--".toText <:+: t) (hgap : inGap = true → t.head? ≠ some (.char '-')) :
    hyphenateFrom inGap t = t := by
  induction t generalizing inGap with
  | nil => rfl
  | cons c t ih =>
      obtain ⟨hc, hrest⟩ := List.forall_mem_cons.mp hchars
      have hdeep : ¬ "--".toText <:+: t :=
        fun h => hapart (h.trans (List.suffix_cons c t).isInfix)
      by_cases halphanum : c.isAlphanum = true
      · rw [hyphenateFrom, if_pos halphanum, ih hrest hdeep fun h => absurd h (by decide)]
      · obtain rfl : c = '-' := hc.resolve_left halphanum
        have hopen : ¬ inGap = true := fun h => hgap h rfl
        rw [hyphenateFrom, if_neg halphanum, if_neg hopen, ih hrest hdeep fun _ hhead => ?_]
        obtain ⟨more, rfl⟩ := List.head?_eq_some_iff.mp hhead
        exact hapart (List.prefix_append "--".toText more).isInfix

/-- A slug is its own identifier. -/
theorem diagramId_eq_self (h : Hyphenated isSlugChar name) : diagramId name = name := by
  have hchars : ∀ c ∈ name, c.isAlphanum = true ∨ c = '-' :=
    fun c hc => (h.chars c hc).imp_left isAlphanum_of_isSlugChar
  have hhyphenate : hyphenate name = name :=
    hyphenateFrom_eq_self hchars h.apart fun hopen => absurd hopen (by decide)
  have htrim : trimHyphens ([] ++ (name ++ [])) = name :=
    trimHyphens_append (List.forall_mem_nil _) (List.forall_mem_nil _) h
  have hlower : name.map CodePoint.toLower = name := by
    conv_rhs => rw [← List.map_id name]
    refine List.map_congr_left fun c hc => ?_
    rcases h.chars c hc with hslug | rfl
    · exact toLower_eq_self_of_isSlugChar hslug
    · decide
  rw [List.nil_append, List.append_nil] at htrim
  rw [diagramId_eq_trimHyphens, hhyphenate, htrim, if_neg h.ne_nil, hlower]

/-- An identifier is not empty and consists of words of small letters and digits with
single hyphens between them, and it is its own identifier.  The names that are their
own identifiers are the slugs. -/
theorem diagramId_canonical (name : Text) :
    Hyphenated isSlugChar (diagramId name) ∧
      (∃ words, words ≠ [] ∧ (∀ word ∈ words, word ≠ [] ∧ ∀ c ∈ word, isSlugChar c = true) ∧
        diagramId name = Text.join ['-'] words) ∧
      diagramId (diagramId name) = diagramId name ∧
      (diagramId name = name ↔ Hyphenated isSlugChar name) := by
  have hwords : ∀ word ∈ nameWords name, word ≠ [] ∧ ∀ c ∈ word, isSlugChar c = true :=
    fun word hword => ⟨(mem_nameWords hword).1, isSlugChar_of_mem_nameWords hword⟩
  have hslug : Hyphenated isSlugChar (diagramId name) := by
    rw [diagramId_eq]
    exact hyphenated_join (by decide) (nameWords_ne_nil name) hwords
  exact ⟨hslug, ⟨nameWords name, nameWords_ne_nil name, hwords, diagramId_eq name⟩,
    diagramId_eq_self hslug, fun heq => heq ▸ hslug, diagramId_eq_self⟩

end Lifeline
