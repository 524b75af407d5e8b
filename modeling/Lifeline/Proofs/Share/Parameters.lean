import Lifeline.Proofs.Share.Query

/-!
# Queries without their question mark

A query is a row of parameters.  Behind a question mark it is read as such: the
token is the value of the first parameter that is named `d` and has a value.
Without the mark a text counts as a query only when the letter `d` and an equals
sign are its beginning.  Any other query is taken for a bare token, with all its
parameters, and this is never the token that it carries: reading a value never
makes it longer.
-/

namespace Lifeline.Share

variable {q t token : Text}

/-- A character of a query: it begins no query, it ends none, and it is no white
space. -/
def isQueryChar (c : CodePoint) : Bool :=
  !(c == '?' || c == '#' || Text.isBlank c)

/-! ## Lengths -/

theorem length_percentOctets_le (t : Text) : (percentOctets t).length ≤ t.length := by
  fun_induction percentOctets t with
  | case1 => exact Nat.le_refl 0
  | case2 a b rest octet hoctet ih =>
      simp only [List.length_cons]
      omega
  | case3 a b rest hnone ih =>
      simp only [List.length_cons] at ih ⊢
      omega
  | case4 c rest hplain ih => exact Nat.succ_le_succ ih

/-- A run, which is kept the last character first, is read as no more characters than
it has. -/
theorem length_decodeReplacing_percentOctets_le (run : Text) :
    (Utf8.decodeReplacing (percentOctets run.reverse)).length ≤ run.length := by
  rw [Utf8.decodeReplacing, List.length_map]
  calc
    (Utf8.unitsFrom false 0 (percentOctets run.reverse)).length
        ≤ (percentOctets run.reverse).length := Utf8.length_unitsFrom_le 0 _
    _ ≤ run.reverse.length := length_percentOctets_le run.reverse
    _ = run.length := List.length_reverse

theorem length_decodePercentFrom_le (run t : Text) :
    (decodePercentFrom run t).length ≤ run.length + t.length := by
  induction t generalizing run with
  | nil => exact length_decodeReplacing_percentOctets_le run
  | cons c t ih =>
      rw [decodePercentFrom]
      split
      · have hlonger := ih (c :: run)
        simp only [List.length_cons] at hlonger ⊢
        omega
      · have hrun := length_decodeReplacing_percentOctets_le run
        have hbehind := ih []
        simp only [List.length_append, List.length_cons, List.length_nil] at hbehind ⊢
        omega

/-- Reading escapes never makes a text longer. -/
theorem length_decodeComponent_le (t : Text) : (decodeComponent t).length ≤ t.length := by
  have hlength := length_decodePercentFrom_le []
      (t.map fun c => if c == .char '+' then .char ' ' else c)
  rwa [List.length_nil, Nat.zero_add, List.length_map] at hlength

/-- The token in a query is shorter than the query, which has its name as well. -/
theorem length_lt_of_tokenOfQuery? (h : tokenOfQuery? q = some token) :
    token.length < q.length := by
  obtain ⟨⟨name, value⟩, hpair, hvalue⟩ := List.exists_of_findSome?_eq_some h
  obtain ⟨-, rfl⟩ : name = "d".toText ∧ value = token := by simpa using hvalue
  obtain ⟨piece, hpiece, hread⟩ := List.mem_filterMap.mp hpair
  have hinside : piece.length ≤ q.length := (Text.infix_of_mem_splitWhere hpiece).length_le
  split at hread
  · rename_i written c rest hcut
    obtain ⟨-, rfl⟩ := Prod.mk.inj (Option.some.inj hread)
    have hshorter := length_decodeComponent_le (c :: rest)
    obtain ⟨rfl, -⟩ := Text.cutAt?_eq_some_iff.mp hcut
    rw [List.length_append, List.length_cons] at hinside
    omega
  · contradiction

/-! ## A query with its mark and without -/

section

variable (hq : ∀ c ∈ q, isQueryChar c = true)

include hq

theorem not_isBlank_of_mem_query : ∀ c ∈ q, Text.isBlank c = false := by
  intro c hc
  have hchar := hq c hc
  rw [isQueryChar, Bool.not_eq_true', Bool.or_eq_false_iff] at hchar
  exact hchar.2

theorem ne_of_mem_query : ∀ c ∈ q, c ≠ '?' ∧ c ≠ '#' := by
  intro c hc
  have hchar := hq c hc
  simp only [isQueryChar, Bool.not_eq_true', Bool.or_eq_false_iff, beq_eq_false_iff_ne] at hchar
  exact hchar.1

theorem dropLineEnds_query : dropLineEnds q = q := by
  rw [dropLineEnds, List.filter_eq_self]
  intro c hc
  have hblank := not_isBlank_of_mem_query hq c hc
  rw [Bool.not_eq_true', ← Bool.not_eq_true]
  intro hend
  simp only [Bool.or_eq_true, beq_iff_eq] at hend
  rcases hend with (rfl | rfl) | rfl
  · exact absurd hblank (by decide)
  · exact absurd hblank (by decide)
  · exact absurd hblank (by decide)

/-- Behind a question mark a query is read. -/
theorem tokenOfLink_cons_mark : tokenOfLink (.char '?' :: q) = .ok (tokenOfQuery? q) := by
  have hstrip : Text.strip (.char '?' :: q) = .char '?' :: q := by
    refine Text.strip_of_trim (Text.trim_of_forall (List.cons_ne_nil _ _) ?_)
    exact List.forall_mem_cons.mpr ⟨by decide, not_isBlank_of_mem_query hq⟩
  have hmarked : queryOf (.char '?' :: q) = .ok q := by
    have hquery : queryOf ([] ++ .char '?' :: q) = .ok ((dropLineEnds q).takeWhile (· ≠ '#')) :=
      queryOf_append (List.forall_mem_nil _)
    have hwhole : q.takeWhile (· ≠ .char '#') = q :=
      List.takeWhile_eq_self_iff.mpr fun c hc => by simpa using (ne_of_mem_query hq c hc).2
    rwa [List.nil_append, dropLineEnds_query hq, hwhole] at hquery
  rw [tokenOfLink, hstrip]
  simp only [if_pos List.mem_cons_self, hmarked]

/-- Without the mark it is read when the parameter `d` is its beginning, and taken
for a token otherwise. -/
theorem tokenOfLink_of_queryChars :
    tokenOfLink q = .ok (if "d=".toText <+: q then tokenOfQuery? q
      else if q = [] then none else some q) := by
  have hstrip : Text.strip q = q := by
    by_cases hnil : q = []
    · rw [hnil, Text.strip_nil]
    · exact Text.strip_of_trim (Text.trim_of_forall hnil (not_isBlank_of_mem_query hq))
  have hmark : .char '?' ∉ q := fun hmem => (ne_of_mem_query hq (.char '?') hmem).1 rfl
  have hbegins : (Text.after? "d=".toText q).isSome = true ↔ "d=".toText <+: q := by
    rw [Option.isSome_iff_exists]
    exact exists_congr fun rest => Text.after?_eq_some_iff.trans eq_comm
  rw [tokenOfLink, hstrip]
  simp only [if_neg hmark, hbegins, List.isEmpty_iff]
  split_ifs <;> rfl

end

/-! ## Parameters -/

/-- A parameter as a query has it: a name and a value, which the separators are not
in. -/
structure Parameter where
  name : Text
  value : Text
  equals_notMem : .char '=' ∉ name
  ampersand_notMem : .char '&' ∉ name ++ value

namespace Parameter

/-- A parameter as it is written. -/
def text (p : Parameter) : Text :=
  p.name ++ .char '=' :: p.value

/-- A parameter carries a token: it is named `d`, perhaps with escapes, and it has a
value. -/
def CarriesToken (p : Parameter) : Prop :=
  decodeComponent p.name = "d".toText ∧ p.value ≠ []

instance (p : Parameter) : Decidable p.CarriesToken :=
  inferInstanceAs (Decidable (_ ∧ _))

/-- The token that a parameter carries. -/
def token? (p : Parameter) : Option Text :=
  if p.CarriesToken then some (decodeComponent p.value) else none

theorem token?_eq_some_iff {p : Parameter} :
    p.token? = some token ↔ p.CarriesToken ∧ decodeComponent p.value = token := by
  rw [token?]
  split <;> simp_all

theorem token?_eq_none_iff {p : Parameter} : p.token? = none ↔ ¬ p.CarriesToken := by
  rw [token?]
  split <;> simp_all

/-- A parameter is cut at its equals sign. -/
theorem cutAt?_text (p : Parameter) : Text.cutAt? '=' p.text = some (p.name, p.value) :=
  Text.cutAt?_eq_some_iff.mpr ⟨rfl, p.equals_notMem⟩

theorem ampersand_notMem_text (p : Parameter) : .char '&' ∉ p.text := by
  have hapart := p.ampersand_notMem
  rw [List.mem_append, not_or] at hapart
  rw [text, List.mem_append, List.mem_cons, not_or, not_or]
  exact ⟨hapart.1, by decide, hapart.2⟩

end Parameter

/-- The query of some parameters. -/
def queryText (ps : List Parameter) : Text :=
  Text.join ['&'] (ps.map Parameter.text)

/-- A query of parameters is read as the first of them that carries a token. -/
theorem tokenOfQuery?_queryText {ps : List Parameter} (hne : ps ≠ []) :
    tokenOfQuery? (queryText ps) = ps.findSome? Parameter.token? := by
  have hpieces : Text.splitWhere (· == '&') (queryText ps) = ps.map Parameter.text := by
    refine Text.splitWhere_join (by decide) (fun hnil => hne (List.map_eq_nil_iff.mp hnil)) ?_
    intro piece hpiece c hc
    obtain ⟨p, -, rfl⟩ := List.mem_map.mp hpiece
    rw [beq_eq_false_iff_ne]
    rintro rfl
    exact p.ampersand_notMem_text hc
  rw [tokenOfQuery?, parameters, hpieces, ← List.head?_filterMap, ← List.head?_filterMap,
    List.filterMap_filterMap, List.filterMap_map]
  -- Both sides take the first of what the parameters give, so it is enough to compare one.
  congr 2
  funext p
  simp only [Function.comp_apply, p.cutAt?_text, Parameter.token?, Parameter.CarriesToken]
  obtain ⟨name, value, hequals, hampersand⟩ := p
  cases value with
  | nil => simp
  | cons c value => simp

/-- A query begins with a word and an equals sign when its first parameter has this
name. -/
theorem prefix_queryText_iff {word : Text} (hword : .char '=' ∉ word) {ps : List Parameter} :
    word ++ [.char '='] <+: queryText ps ↔ ps.head?.map Parameter.name = some word := by
  cases ps with
  | nil => simp [queryText, Text.join]
  | cons p ps =>
      obtain ⟨more, hmore⟩ : ∃ more, queryText (p :: ps) = p.name ++ .char '=' :: more := by
        cases ps with
        | nil => exact ⟨p.value, rfl⟩
        | cons next ps => exact ⟨_, List.append_assoc p.name (.char '=' :: p.value) _⟩
      -- There is one way only to cut the query at its first equals sign.
      have hcut : Text.cutAt? '=' (queryText (p :: ps)) = some (p.name, more) :=
        Text.cutAt?_eq_some_iff.mpr ⟨hmore, p.equals_notMem⟩
      rw [List.head?_cons, Option.map_some, Option.some.injEq]
      constructor
      · rintro ⟨rest, hrest⟩
        have hword : Text.cutAt? '=' (queryText (p :: ps)) = some (word, rest) :=
          Text.cutAt?_eq_some_iff.mpr ⟨by rw [← hrest, List.append_assoc]; rfl, hword⟩
        rw [hcut] at hword
        exact (Prod.mk.inj (Option.some.inj hword)).1
      · rintro rfl
        exact ⟨more, by rw [hmore, List.append_assoc]; rfl⟩

/-- A query with a token in it is read alike with its question mark and without
exactly when its first parameter is written `d`.  With the mark the token is found
wherever it stands, in the first parameter that carries one.  Without the mark a query
that begins otherwise is taken for a token as it stands. -/
theorem tokenOfLink_eq_marked_iff {ps : List Parameter}
    (hchars : ∀ c ∈ queryText ps, isQueryChar c = true) (htoken : ∃ p ∈ ps, p.CarriesToken) :
    (tokenOfLink (queryText ps) = tokenOfLink (.char '?' :: queryText ps) ↔
        ps.head?.map Parameter.name = some "d".toText) ∧
      (∃ before p behind, ps = before ++ p :: behind ∧ (∀ o ∈ before, ¬ o.CarriesToken) ∧
        p.CarriesToken ∧
          tokenOfLink (.char '?' :: queryText ps) = .ok (some (decodeComponent p.value))) ∧
      (ps.head?.map Parameter.name ≠ some "d".toText →
        tokenOfLink (queryText ps) = .ok (some (queryText ps))) := by
  obtain ⟨carrier, hcarrier, hcarries⟩ := htoken
  have hread : tokenOfQuery? (queryText ps) = ps.findSome? Parameter.token? :=
    tokenOfQuery?_queryText (List.ne_nil_of_mem hcarrier)
  obtain ⟨token, hfound⟩ : ∃ token, ps.findSome? Parameter.token? = some token := by
    rw [← Option.isSome_iff_exists, List.findSome?_isSome_iff]
    exact ⟨carrier, hcarrier, by rw [Parameter.token?, if_pos hcarries]; rfl⟩
  have hmarked : tokenOfLink (.char '?' :: queryText ps) = .ok (some token) := by
    rw [tokenOfLink_cons_mark hchars, hread, hfound]
  have hshorter : token.length < (queryText ps).length :=
    length_lt_of_tokenOfQuery? (hread.trans hfound)
  -- Without a mark it is only looked at how the query begins.
  have hbegins : "d=".toText <+: queryText ps ↔ ps.head?.map Parameter.name = some "d".toText :=
    prefix_queryText_iff (by decide : .char '=' ∉ "d".toText)
  have hbare : ps.head?.map Parameter.name ≠ some "d".toText →
      tokenOfLink (queryText ps) = .ok (some (queryText ps)) := by
    intro hhead
    have hne : queryText ps ≠ [] := List.ne_nil_of_length_pos (Nat.zero_lt_of_lt hshorter)
    rw [tokenOfLink_of_queryChars hchars, if_neg (mt hbegins.mp hhead), if_neg hne]
  refine ⟨⟨fun hsame => ?_, fun hhead => ?_⟩, ?_, hbare⟩
  · -- A query that is taken for a token is longer than the token in it.
    by_contra hhead
    rw [hbare hhead, hmarked] at hsame
    rw [Option.some.inj (Except.ok.inj hsame)] at hshorter
    exact lt_irrefl _ hshorter
  · rw [tokenOfLink_of_queryChars hchars, if_pos (hbegins.mpr hhead), tokenOfLink_cons_mark hchars]
  · obtain ⟨before, p, behind, hps, hp, hbefore⟩ := List.findSome?_eq_some_iff.mp hfound
    obtain ⟨hfirst, rfl⟩ := Parameter.token?_eq_some_iff.mp hp
    exact ⟨before, p, behind, hps, fun o ho => Parameter.token?_eq_none_iff.mp (hbefore o ho),
      hfirst, hmarked⟩

/-- A query that begins with the parameter `d` and has the token further behind, where the
name is written with an escape. -/
def escapedQuery : List Parameter :=
  [⟨"d".toText, [], by decide, by decide⟩, ⟨"x".toText, "1=2".toText, by decide, by decide⟩,
    ⟨"%64".toText, "caf%C3%A9+".toText, by decide, by decide⟩,
    ⟨"d".toText, "late".toText, by decide, by decide⟩]

theorem tokenOfLink_eq_marked_iff_escapedQuery :
    (∀ c ∈ queryText escapedQuery, isQueryChar c = true) ∧
      (∃ p ∈ escapedQuery, p.CarriesToken) ∧
      tokenOfLink (queryText escapedQuery) = tokenOfLink (.char '?' :: queryText escapedQuery) ∧
      ∃ before p behind, escapedQuery = before ++ p :: behind ∧
        (∀ o ∈ before, ¬ o.CarriesToken) ∧ p.CarriesToken ∧
        tokenOfLink (.char '?' :: queryText escapedQuery) =
          .ok (some (decodeComponent p.value)) := by
  have hchars : ∀ c ∈ queryText escapedQuery, isQueryChar c = true :=
    List.all_eq_true.mp (by decide : (queryText escapedQuery).all isQueryChar = true)
  have htoken : ∃ p ∈ escapedQuery, p.CarriesToken := by decide
  obtain ⟨halike, hmarked, -⟩ := tokenOfLink_eq_marked_iff hchars htoken
  exact ⟨hchars, htoken, halike.mpr rfl, hmarked⟩

/-- A query with the token in its second parameter. -/
def lateQuery : List Parameter :=
  [⟨"x".toText, "1".toText, by decide, by decide⟩, ⟨"d".toText, "abc".toText, by decide, by decide⟩]

/-- The token of this query is found with the question mark and not without. -/
theorem tokenOfLink_lateQuery :
    (∀ c ∈ queryText lateQuery, isQueryChar c = true) ∧ (∃ p ∈ lateQuery, p.CarriesToken) ∧
      tokenOfLink (queryText lateQuery) = .ok (some "x=1&d=abc".toText) ∧
      tokenOfLink (.char '?' :: queryText lateQuery) = .ok (some "abc".toText) ∧
      tokenOfLink (queryText lateQuery) ≠ tokenOfLink (.char '?' :: queryText lateQuery) := by
  have hbare : tokenOfLink (queryText lateQuery) = .ok (some "x=1&d=abc".toText) := rfl
  have hmarked : tokenOfLink (.char '?' :: queryText lateQuery) = .ok (some "abc".toText) := rfl
  refine ⟨List.all_eq_true.mp (by decide : (queryText lateQuery).all isQueryChar = true),
    by decide, hbare, hmarked, ?_⟩
  rw [hbare, hmarked, ne_eq, Except.ok.injEq]
  decide

end Lifeline.Share
