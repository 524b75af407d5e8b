import Lifeline.Proofs.Share.Address
import Lifeline.Proofs.Share.Ambiguity
import Lifeline.Proofs.Text.Trimming

/-!
# Queries behind a base address

Reading an address takes away its scheme and its authority.  When an ASCII base
without delimiters stands in front of the question mark this touches the base
alone, so the query is what stands behind the question mark, up to a number sign,
without tabs and line ends.  Characters that stand for themselves in a query
come out of it as they are.
-/

namespace Lifeline.Share

variable {c : CodePoint} {front rest t token : Text}

/-- An ASCII character of a base address: it ends no part of an address and
encloses no host. -/
def isBaseChar (c : CodePoint) : Bool :=
  c.toNat < 128 && !(c == '?' || c == '#' || c == '[' || c == ']')

/-- A character that stands for itself in a link: a letter, a digit, a hyphen or an
underscore. -/
def isLinkSafe (c : CodePoint) : Bool :=
  c.isAlphanum || c == '-' || c == '_'

/-- A text without tabs and line ends. -/
def dropLineEnds (t : Text) : Text :=
  t.filter fun c => !(c == '\t' || c == '\r' || c == '\n')

/-! ## A base in front of the question mark -/

theorem cleanAddress_append (front rest : Text) :
    ∃ base, base ⊆ front ∧
      cleanAddress (front ++ .char '?' :: rest) = base ++ .char '?' :: dropLineEnds rest := by
  refine ⟨dropLineEnds (front.dropWhile fun c => c.toNat ≤ 0x20), ?_, ?_⟩
  · exact fun c hc => (List.dropWhile_sublist _).subset (List.mem_of_mem_filter hc)
  · rw [cleanAddress, Text.dropWhile_append_cons (by decide), List.filter_append,
      List.filter_cons_of_pos (by decide)]
    rfl

/-- A question mark stands in no scheme. -/
theorem dropScheme_append (front rest : Text) :
    ∃ base, base ⊆ front ∧ dropScheme (front ++ .char '?' :: rest) = base ++ .char '?' :: rest := by
  unfold dropScheme
  split
  · rename_i c scheme behind hcut
    obtain ⟨heq, -⟩ := Text.cutAt?_eq_some_iff.mp hcut
    rcases List.append_eq_append_iff.mp heq with ⟨inside, hscheme, hmark⟩ | ⟨inside, hfront, hcolon⟩
    · -- The colon stands behind the question mark.
      have hmem : .char '?' ∈ c :: scheme := by
        cases inside with
        | nil =>
            rw [List.nil_append] at hmark
            exact absurd (List.cons.inj hmark).1 (by decide)
        | cons b inside =>
            rw [hscheme, ← (List.cons.inj hmark).1]
            simp
      have hnone : ¬ (c.isAlpha && scheme.all isSchemeChar) = true := by
        intro hall
        rw [Bool.and_eq_true, List.all_eq_true] at hall
        rcases List.mem_cons.mp hmem with rfl | hmem
        · exact absurd hall.1 (by decide)
        · exact absurd (hall.2 '?' hmem) (by decide)
      exact ⟨front, List.Subset.refl _, if_neg hnone⟩
    · cases inside with
      | nil =>
          rw [List.nil_append] at hcolon
          exact absurd (List.cons.inj hcolon).1 (by decide)
      | cons b inside =>
          split
          · refine ⟨inside, ?_, (List.cons.inj hcolon).2⟩
            rw [hfront]
            exact fun d hd => List.mem_append_right _ (List.mem_cons_of_mem b hd)
          · exact ⟨front, List.Subset.refl _, rfl⟩
  · exact ⟨front, List.Subset.refl _, rfl⟩

theorem splitAuthority_append (front rest : Text) :
    ∃ authority base, authority ⊆ front ∧ base ⊆ front ∧
      splitAuthority (front ++ .char '?' :: rest) = (authority, base ++ .char '?' :: rest) := by
  by_cases hslashes : ∃ behind, front = .char '/' :: .char '/' :: behind
  · obtain ⟨behind, rfl⟩ := hslashes
    refine ⟨_, _, ?_, ?_, congrArg₂ Prod.mk (Text.takeWhile_append_cons (by decide))
      (Text.dropWhile_append_cons (by decide))⟩
    · exact fun c hc => List.mem_cons_of_mem _ (List.mem_cons_of_mem _
        ((List.takeWhile_sublist _).subset hc))
    · exact fun c hc => List.mem_cons_of_mem _ (List.mem_cons_of_mem _
        ((List.dropWhile_sublist _).subset hc))
  · refine ⟨[], front, List.nil_subset _, List.Subset.refl _, ?_⟩
    unfold splitAuthority
    split
    · -- Both slashes would belong to the base.
      rename_i behind heq
      rcases front with _ | ⟨a, _ | ⟨b, front⟩⟩
      · exact absurd (List.cons.inj heq).1 (by decide)
      · exact absurd (List.cons.inj (List.cons.inj heq).2).1 (by decide)
      · obtain ⟨rfl, htail⟩ := List.cons.inj heq
        obtain ⟨rfl, -⟩ := List.cons.inj htail
        exact absurd ⟨front, rfl⟩ hslashes
    · rfl

theorem isSuspicious_of_isBaseChar (h : isBaseChar c = true) : isSuspicious c = false := by
  have hbeyond : ∀ n ∈ delimiterLookalikes, 128 ≤ n := by decide
  simp only [isBaseChar, Bool.and_eq_true, decide_eq_true_eq, Bool.not_eq_true',
    Bool.or_eq_false_iff] at h
  obtain ⟨hascii, ⟨⟨-, hopening⟩, hclosing⟩⟩ := h
  have hlookalike : delimiterLookalikes.contains c.toNat = false := by
    rw [← Bool.not_eq_true, List.contains_iff_mem]
    intro hmem
    have hwide := hbeyond c.toNat hmem
    omega
  rw [isSuspicious, hopening, hclosing, hlookalike]
  rfl

theorem ne_of_isBaseChar (h : isBaseChar c = true) : c ≠ '?' ∧ c ≠ '#' := by
  constructor
  · rintro rfl
    exact absurd h (by decide)
  · rintro rfl
    exact absurd h (by decide)

/-- The query behind a base is what stands behind the question mark, up to a
number sign. -/
theorem queryOf_append (hfront : ∀ c ∈ front, isBaseChar c = true) :
    queryOf (front ++ .char '?' :: rest) = .ok ((dropLineEnds rest).takeWhile (· ≠ .char '#')) := by
  obtain ⟨cleaned, hcleaned, hclean⟩ := cleanAddress_append front rest
  obtain ⟨behind, hbehind, hdrop⟩ := dropScheme_append cleaned (dropLineEnds rest)
  obtain ⟨authority, base, hauthority, hbase, hsplit⟩ :=
    splitAuthority_append behind (dropLineEnds rest)
  have haccepted : authorityError? authority = none :=
    authorityError?_eq_none fun c hc =>
      isSuspicious_of_isBaseChar (hfront c (hcleaned (hbehind (hauthority hc))))
  have hplain : ∀ c ∈ base, isBaseChar c = true :=
    fun c hc => hfront c (hcleaned (hbehind (hbase hc)))
  -- Each stage took from the base alone, so no number sign stands before the question mark.
  have hpath : (base ++ .char '?' :: dropLineEnds rest).takeWhile (· ≠ .char '#') =
      base ++ .char '?' :: (dropLineEnds rest).takeWhile (· ≠ .char '#') := by
    rw [List.takeWhile_append_of_pos fun c hc => by simpa using (ne_of_isBaseChar (hplain c hc)).2]
    rfl
  have hmark : ∀ u, (base ++ CodePoint.char '?' :: u).dropWhile (· ≠ .char '?') =
      CodePoint.char '?' :: u := by
    intro u
    rw [List.dropWhile_append_of_pos fun c hc => by simpa using (ne_of_isBaseChar (hplain c hc)).1]
    rfl
  simp only [queryOf, hclean, hdrop, hsplit, haccepted, hpath, hmark, List.drop_one, List.tail_cons]

/-! ## Characters that stand for themselves -/

/-- What is asked of a character of a link: it is ASCII, it delimits nothing and it
is no escape. -/
theorem of_isLinkSafe (h : isLinkSafe c = true) :
    c.toNat < 128 ∧ Text.isBlank c = false ∧
      c ∉ [.char '?', .char '#', .char '&', .char '=', .char '+', .char '%', .char '\t', .char '\r',
        .char '\n'] := by
  have hascii : c.toNat < 128 := by
    simp only [isLinkSafe, Bool.or_eq_true, beq_iff_eq] at h
    rcases h with (halphanum | rfl) | rfl
    · exact Text.toNat_lt_of_isAlphanum halphanum
    · decide
    · decide
  have hall : ∀ n < 128, isLinkSafe (CodePoint.ofNat n) = true →
      Text.isBlank (CodePoint.ofNat n) = false ∧
      CodePoint.ofNat n ∉ [.char '?', .char '#', .char '&', .char '=', .char '+', .char '%',
        .char '\t', .char '\r', .char '\n'] := by
    decide +kernel
  have hsafe := hall c.toNat hascii
  rw [CodePoint.ofNat_toNat] at hsafe
  exact ⟨hascii, hsafe h⟩

theorem percentOctets_eq (ht : ∀ c ∈ t, c.toNat < 128 ∧ c ≠ '%') :
    percentOctets t = Utf8.encode t := by
  induction t with
  | nil => rfl
  | cons c t ih =>
      obtain ⟨⟨hascii, hpercent⟩, hrest⟩ := List.forall_mem_cons.mp ht
      have hcons : percentOctets (c :: t) = UInt8.ofNat c.toNat :: percentOctets t := by
        rw [percentOctets]
        rintro a b rest rfl
        contradiction
      rw [hcons, ih hrest, Utf8.encode_cons_of_lt hascii]

theorem decodePercentFrom_eq {run : Text} (ht : ∀ c ∈ t, c.toNat < 128) :
    decodePercentFrom run t = Utf8.decodeReplacing (percentOctets (run.reverse ++ t)) := by
  induction t generalizing run with
  | nil => rw [decodePercentFrom, List.append_nil]
  | cons c t ih =>
      obtain ⟨hascii, hrest⟩ := List.forall_mem_cons.mp ht
      rw [decodePercentFrom, if_pos hascii, ih hrest, List.reverse_cons, List.append_assoc]
      rfl

theorem decodeComponent_eq_self (ht : ∀ c ∈ t, isLinkSafe c = true) : decodeComponent t = t := by
  have hsame : (t.map fun c => if c == .char '+' then .char ' ' else c) = t := by
    conv_rhs => rw [← List.map_id t]
    refine List.map_congr_left fun c hc => if_neg ?_
    intro hplus
    obtain rfl := eq_of_beq hplus
    exact (of_isLinkSafe (ht '+' hc)).2.2 (by decide)
  have hplain : ∀ c ∈ t, c.toNat < 128 ∧ c ≠ '%' := by
    intro c hc
    obtain ⟨hascii, -, hmember⟩ := of_isLinkSafe (ht c hc)
    refine ⟨hascii, ?_⟩
    rintro rfl
    exact hmember (by decide)
  have hscalar : t.isScalar = true := Text.isScalar_iff.mpr fun c hc =>
    CodePoint.isScalar_of_toNat_lt (Nat.lt_trans (hplain c hc).1 (by decide))
  rw [decodeComponent, hsame, decodePercentFrom_eq fun c hc => (hplain c hc).1, List.reverse_nil,
    List.nil_append, percentOctets_eq hplain, Utf8.decodeReplacing_encode hscalar]

/-! ## The token in a query -/

/-- The token in a query that begins with it is found, whatever parameters stand
behind. -/
theorem tokenOfQuery?_append {more : Text} (hne : token ≠ [])
    (hsafe : ∀ c ∈ token, isLinkSafe c = true)
    (hmore : more = [] ∨ ∃ others, more = .char '&' :: others) :
    tokenOfQuery? ("d=".toText ++ token ++ more) = some token := by
  have hfree : ∀ c ∈ "d=".toText, (c == .char '&') = false := by decide
  have hpiece : ∀ c ∈ "d=".toText ++ token, (c == '&') = false := by
    intro c hc
    rcases List.mem_append.mp hc with hname | htoken
    · exact hfree c hname
    · rw [beq_eq_false_iff_ne]
      rintro rfl
      exact (of_isLinkSafe (hsafe '&' htoken)).2.2 (by decide)
  -- No ampersand stands in the token, so the first piece is the whole parameter.
  obtain ⟨pairs, hpairs⟩ : ∃ pairs, Text.splitWhere (· == '&') ("d=".toText ++ token ++ more) =
      ("d=".toText ++ token) :: pairs := by
    rcases hmore with rfl | ⟨others, rfl⟩
    · exact ⟨[], by rw [List.append_nil, Text.splitWhere_of_forall hpiece]⟩
    · refine ⟨Text.splitWhere (· == '&') others, ?_⟩
      rw [Text.splitWhere_append_cons (by decide), Text.splitWhere_of_forall hpiece,
        List.singleton_append]
  have hcut : Text.cutAt? '=' ("d=".toText ++ token) = some ("d".toText, token) :=
    Text.cutAt?_eq_some_iff.mpr ⟨rfl, by decide⟩
  have hname : decodeComponent "d".toText = "d".toText := rfl
  obtain ⟨c, value, rfl⟩ := List.exists_cons_of_ne_nil hne
  simp only [tokenOfQuery?, parameters, hpairs, List.filterMap_cons, hcut, hname,
    decodeComponent_eq_self hsafe, List.findSome?_cons, if_true]

end Lifeline.Share
