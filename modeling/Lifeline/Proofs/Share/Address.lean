import Lifeline.Proofs.Share.Faults
import Lifeline.Proofs.Text.Lines
import Lifeline.Proofs.Text.Pieces
import Lifeline.Share.Link

/-!
# Links that are refused

Reading a link ends with a session or with none, unless the link is refused for
the authority of its address, or its token nests too deep.  An address is taken
apart before any token is looked at, and what is wrong with it is not caught.  It
takes a question mark to be read as an address, and a square bracket or a
look-alike of a delimiter to be refused.
-/

namespace Lifeline.Share

variable {t value authority : Text} {c : CodePoint} {e : AddressError}

/-! ## Parts of an address -/

/-- The authority of an address. -/
def authorityOf (t : Text) : Text :=
  (splitAuthority (dropScheme (cleanAddress t))).1

theorem cleanAddress_subset (t : Text) : cleanAddress t ⊆ t :=
  fun _ hc => (List.dropWhile_sublist _).subset (List.mem_of_mem_filter hc)

theorem dropScheme_suffix (t : Text) : dropScheme t <:+ t := by
  unfold dropScheme
  split
  · rename_i c scheme rest hcut
    obtain ⟨ht, -⟩ := Text.cutAt?_eq_some_iff.mp hcut
    split
    · exact ⟨c :: scheme ++ [.char ':'], by rw [ht]; simp⟩
    · exact List.suffix_refl t
  · exact List.suffix_refl t

theorem splitAuthority_subset (t : Text) : (splitAuthority t).1 ⊆ t := by
  unfold splitAuthority
  split
  · intro c hc
    exact List.mem_cons_of_mem _ (List.mem_cons_of_mem _ ((List.takeWhile_sublist _).subset hc))
  · exact List.nil_subset _

theorem authorityOf_subset (t : Text) : authorityOf t ⊆ t :=
  fun _ hc => cleanAddress_subset t
    ((dropScheme_suffix _).subset (splitAuthority_subset _ hc))

/-! ## Authorities that are accepted -/

/-- A character for which an authority may be refused. -/
def isSuspicious (c : CodePoint) : Bool :=
  c == '[' || c == ']' || delimiterLookalikes.contains c.toNat

/-- An authority without brackets and look-alikes is accepted. -/
theorem authorityError?_eq_none (h : ∀ c ∈ authority, isSuspicious c = false) :
    authorityError? authority = none := by
  have hbracket : ∀ b : CodePoint, isSuspicious b = true → b ∉ authority := by
    intro b hb hmem
    rw [h b hmem] at hb
    contradiction
  have hopening : .char '[' ∉ authority := hbracket (.char '[') (by decide)
  have hclosing : .char ']' ∉ authority := hbracket (.char ']') (by decide)
  have hhidden : (authority.any fun c => delimiterLookalikes.contains c.toNat) = false := by
    rw [List.any_eq_false]
    intro c hc hlookalike
    exact hbracket c (by rw [isSuspicious, hlookalike, Bool.or_true]) hc
  rw [authorityError?, decide_eq_false hopening, decide_eq_false hclosing, hhidden]
  rfl

theorem exists_suspicious (h : authorityError? authority = some e) :
    ∃ c ∈ authority, isSuspicious c = true := by
  by_contra hnone
  have hall : ∀ c ∈ authority, isSuspicious c = false :=
    fun c hc => eq_false_of_ne_true fun hsuspicious => hnone ⟨c, hc, hsuspicious⟩
  rw [authorityError?_eq_none hall] at h
  contradiction

/-! ## Links -/

theorem queryOf_eq_error_iff : queryOf t = .error e ↔ authorityError? (authorityOf t) = some e := by
  unfold queryOf authorityOf
  cases hsplit : splitAuthority (dropScheme (cleanAddress t)) with
  | mk authority rest => cases hrefused : authorityError? authority <;> simp [hrefused]

/-- An address is refused for its authority, and only if it has a question mark. -/
theorem tokenOfLink_eq_error_iff :
    tokenOfLink value = .error e ↔
      .char '?' ∈ Text.strip value ∧ authorityError? (authorityOf (Text.strip value)) = some e := by
  rw [← queryOf_eq_error_iff, tokenOfLink]
  by_cases hmark : .char '?' ∈ Text.strip value
  · rw [if_pos hmark]
    cases hquery : queryOf (Text.strip value) with
    | error e => simp [hmark]
    | ok query => simp [hmark]
  · rw [if_neg hmark]
    simp only [hmark, false_and, iff_false]
    split_ifs
    · nofun
    · nofun
    · nofun

/-- What ends the reading of a link is wrong with its address, or it gets out of the reader
of its token. -/
theorem sessionOfLink_eq_error_cases [Json.Stack] {fault : LinkFault} :
    sessionOfLink value = .error fault ↔
      (∃ e, fault = .address e ∧ tokenOfLink value = .error e) ∨
        ∃ token met, fault = .token met ∧ tokenOfLink value = .ok (some token) ∧
          sessionOfToken token = .error met := by
  unfold sessionOfLink
  cases tokenOfLink value with
  | error e => simp [eq_comm]
  | ok answer =>
      cases answer with
      | none => simp
      | some token =>
          cases hread : sessionOfToken token with
          | ok s => simp [Except.mapError, hread]
          | error met => simp [Except.mapError, hread, eq_comm]

/-- Reading a link ends with a session or with none, but for two faults.  The trimmed link has
a question mark and its authority is refused, which never happens to a link without a bracket
or a look-alike; or its token carries a text that nests too deep. -/
theorem sessionOfLink_error_iff [Json.Stack] (value : Text) :
    (∀ fault, sessionOfLink value = .error fault ↔
        (∃ e, fault = .address e ∧ .char '?' ∈ Text.strip value ∧
          authorityError? (authorityOf (Text.strip value)) = some e) ∨
        (fault = .token (.json .tooDeep) ∧ ∃ token t, tokenOfLink value = .ok (some token) ∧
          textOfToken token = .ok t ∧ Json.parse t = .error .tooDeep)) ∧
      ∀ e, sessionOfLink value = .error (.address e) →
        .char '?' ∈ value ∧ ∃ c ∈ value, isSuspicious c = true := by
  have hstrip : Text.strip value ⊆ value := (Text.isInfix_strip value).subset
  refine ⟨?_, ?_⟩
  · intro fault
    simp only [sessionOfLink_eq_error_cases, tokenOfLink_eq_error_iff, sessionOfToken_eq_error_iff]
    constructor
    · rintro (haddress | ⟨token, met, rfl, htoken, rfl, t, htext, hparse⟩)
      · exact Or.inl haddress
      · exact Or.inr ⟨rfl, token, t, htoken, htext, hparse⟩
    · rintro (haddress | ⟨rfl, token, t, htoken, htext, hparse⟩)
      · exact Or.inl haddress
      · exact Or.inr ⟨token, _, rfl, htoken, rfl, t, htext, hparse⟩
  · intro e hfault
    rcases sessionOfLink_eq_error_cases.mp hfault with ⟨refused, -, hlink⟩ | ⟨token, met, hother, -⟩
    · obtain ⟨hmark, hrefused⟩ := tokenOfLink_eq_error_iff.mp hlink
      obtain ⟨c, hc, hsuspicious⟩ := exists_suspicious hrefused
      exact ⟨hstrip hmark, c, hstrip (authorityOf_subset _ hc), hsuspicious⟩
    · nomatch hother

/-- A link whose host opens a bracket and does not close it is refused. -/
theorem sessionOfLink_openBracket :
    @sessionOfLink .usual "http://[?d=x".toText = .error (.address .strayBracket) := by
  rw [@sessionOfLink_eq_error_cases _ .usual]
  refine Or.inl ⟨_, rfl, ?_⟩
  rw [tokenOfLink_eq_error_iff]
  decide

end Lifeline.Share
