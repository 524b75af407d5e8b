import Lifeline.Proofs.Share.Query
import Lifeline.Proofs.Share.Session

/-!
# Links in transport

The token of a session stands for itself in a link.  It is found again behind any
base of ASCII characters without delimiters, before further parameters or a
fragment, in a query alone and on its own, each with white space around it.  Its
first character tells the two kinds of tokens apart: the payload of a session
begins with a brace, so a compact token begins with `e`.
-/

namespace Lifeline.Share

variable {c : CodePoint} {t token base w front back : Text}

/-! ## Tokens -/

theorem isLinkSafe_of_mem_encode {bytes : Bytes} (hc : c ∈ Base64.encode bytes) :
    isLinkSafe c = true := by
  have hdigits : ∀ n < 64, isLinkSafe (Base64.digit n) = true := by decide +kernel
  rw [Base64.encode_eq_map_digit] at hc
  obtain ⟨n, hn, rfl⟩ := List.mem_map.mp hc
  exact hdigits n (Base64.lt_of_mem_sextets n hn)

/-- A token needs no escapes in a link. -/
theorem isLinkSafe_of_mem_token (h : IsTokenOf token t) (hc : c ∈ token) :
    isLinkSafe c = true := by
  rcases h with hpacked | hfallback
  · obtain ⟨codes, bytes, -, -, rfl⟩ := exists_of_packedToken hpacked
    exact isLinkSafe_of_mem_encode hc
  · obtain ⟨-, rfl⟩ := fallbackToken?_eq_some_iff.mp hfallback
    rcases List.mem_cons.mp hc with rfl | hc
    · decide
    · exact isLinkSafe_of_mem_encode hc

theorem not_hasCompactForm_iff :
    ¬ HasCompactForm t ↔ (∃ c ∈ t, 0xFF < c.toNat) ∨
      ∃ codes, Lzw.compress t = .ok codes ∧ ∃ k ∈ codes, 2 ^ 21 ≤ k := by
  -- A wide character is found first; without one there are codes, and one of them is too large.
  by_cases hwide : ∃ c ∈ t, 0xFF < c.toNat
  · refine iff_of_true ?_ (Or.inl hwide)
    obtain ⟨c, hc, hlarge⟩ := hwide
    exact fun h => Nat.not_lt.mpr (h.1 c hc) hlarge
  · have hsmall : ∀ c ∈ t, c.toNat ≤ 0xFF :=
      fun c hc => Nat.not_lt.mp fun hlarge => hwide ⟨c, hc, hlarge⟩
    obtain ⟨codes, hcodes, -⟩ :=
      Lzw.exists_compress_eq_ok fun c hc => Nat.lt_succ_of_le (hsmall c hc)
    have hlimit : Packing.limit = 2 ^ 21 := rfl
    constructor
    · intro hform
      refine Or.inr ⟨codes, hcodes, ?_⟩
      by_contra hnone
      refine hform ⟨hsmall, codes, hcodes, fun k hk => ?_⟩
      exact Nat.lt_of_not_le fun hlarge => hnone ⟨k, hk, hlimit ▸ hlarge⟩
    · rintro (hsome | ⟨codes', hcodes', k, hk, hlarge⟩)
      · exact absurd hsome hwide
      · rintro ⟨-, codes'', hcodes'', hall⟩
        obtain rfl : codes' = codes'' := Except.ok.inj (hcodes'.symm.trans hcodes'')
        exact Nat.not_lt.mpr hlarge (hall k hk)

/-- Behind a brace a token begins with `e` when it is compact, and with `b`
otherwise. -/
theorem head?_token_brace (h : tokenOfText? (.char '{' :: t) = some token) :
    (HasCompactForm (.char '{' :: t) ∧ token.head? = some (.char 'e')) ∨
      (¬ HasCompactForm (.char '{' :: t) ∧ token.head? = some (.char 'b')) := by
  unfold tokenOfText? at h
  cases hpacked : packedToken (.char '{' :: t) with
  | ok packed =>
      rw [hpacked] at h
      obtain rfl : packed = token := Option.some.inj h
      refine Or.inl ⟨exists_packedToken_eq_ok_iff.mp ⟨packed, hpacked⟩, ?_⟩
      rw [head?_packedToken hpacked]
      rfl
  | error e =>
      rw [hpacked] at h
      obtain ⟨-, rfl⟩ := fallbackToken?_eq_some_iff.mp h
      refine Or.inr ⟨fun hform => ?_, rfl⟩
      obtain ⟨packed, hok⟩ := exists_packedToken_eq_ok_iff.mpr hform
      rw [hpacked] at hok
      contradiction

/-! ## Forms of a link -/

/-- What may stand behind the token of a link: nothing, further parameters, or a
fragment. -/
def EndsToken (w : Text) : Prop :=
  w = [] ∨ ∃ rest, w = .char '&' :: rest ∨ w = .char '#' :: rest

/-- Trimmed, cleaned and cut at the fragment, what stands behind a token still is
nothing or further parameters. -/
theorem EndsToken.cut (hw : EndsToken w) :
    (dropLineEnds (Text.dropBlanksEnd w)).takeWhile (· ≠ .char '#') = [] ∨
      ∃ others,
        (dropLineEnds (Text.dropBlanksEnd w)).takeWhile (· ≠ .char '#') = .char '&' :: others := by
  rcases hw with rfl | ⟨rest, rfl | rfl⟩
  · exact Or.inl rfl
  · have hkept : Text.dropBlanksEnd ([.char '&'] ++ rest) = .char '&' :: Text.dropBlanksEnd rest :=
      Text.dropBlanksEnd_append ⟨'&', rfl, by decide⟩ rest
    exact Or.inr ⟨_, by rw [List.singleton_append] at hkept; rw [hkept]; rfl⟩
  · have hkept : Text.dropBlanksEnd ([.char '#'] ++ rest) = .char '#' :: Text.dropBlanksEnd rest :=
      Text.dropBlanksEnd_append ⟨'#', rfl, by decide⟩ rest
    exact Or.inl (by rw [List.singleton_append] at hkept; rw [hkept]; rfl)

theorem takeWhile_dropLineEnds_append
    (ht : ∀ c ∈ t, c ∉ [.char '\t', .char '\r', .char '\n', .char '#']) (more : Text) :
    (dropLineEnds (t ++ more)).takeWhile (· ≠ .char '#') =
      t ++ (dropLineEnds more).takeWhile (· ≠ .char '#') := by
  induction t with
  | nil => rfl
  | cons c t ih =>
      obtain ⟨hc, hrest⟩ := List.forall_mem_cons.mp ht
      simp only [List.mem_cons, List.not_mem_nil, or_false, not_or] at hc
      obtain ⟨htab, hreturn, hfeed, hnumber⟩ := hc
      have hcons : dropLineEnds (c :: (t ++ more)) = c :: dropLineEnds (t ++ more) :=
        List.filter_cons_of_pos (by simp [htab, hreturn, hfeed])
      rw [List.cons_append, hcons, List.takeWhile_cons_of_pos (by simpa using hnumber), ih hrest]
      rfl

variable (hne : token ≠ []) (hsafe : ∀ c ∈ token, isLinkSafe c = true)

include hne hsafe

theorem trim_token : Text.Trim token :=
  Text.trim_of_forall hne fun c hc => (of_isLinkSafe (hsafe c hc)).2.1

theorem trim_append_token {mark : CodePoint} (hmark : Text.isBlank mark = false) (name : Text) :
    Text.Trim (mark :: name ++ token) where
  head := ⟨mark, rfl, hmark⟩
  last := by
    obtain ⟨c, hlast, hc⟩ := (trim_token hne hsafe).last
    exact ⟨c, by rw [List.getLast?_append, hlast]; rfl, hc⟩

/-- A token is found in the query of a link. -/
theorem tokenOfLink_url (hbase : ∀ c ∈ base, isBaseChar c = true) (hw : EndsToken w)
    (hfront : Text.isBlankText front = true) (hback : Text.isBlankText back = true) :
    tokenOfLink (front ++ (base ++ "?d=".toText ++ token ++ w) ++ back) = .ok (some token) := by
  have htrim : Text.Trim ("?d=".toText ++ token) :=
    trim_append_token hne hsafe (by decide) "d=".toText
  -- Trimming may shorten the base and what stands at the end, but not the part between them.
  have hstrip : Text.strip (front ++ (base ++ "?d=".toText ++ token ++ w) ++ back) =
      Text.dropBlanks base ++ .char '?' :: ("d=".toText ++ token ++ Text.dropBlanksEnd w) := by
    have hparts : front ++ (base ++ "?d=".toText ++ token ++ w) ++ back =
        (front ++ base) ++ (("?d=".toText ++ token) ++ (w ++ back)) := by simp
    rw [hparts, Text.strip_append htrim, Text.dropBlanks_append_of_blank hfront,
      Text.dropBlanksEnd_append_of_blank hback]
    simp
  have hmark : .char '?' ∈ Text.dropBlanks base ++
      .char '?' :: ("d=".toText ++ token ++ Text.dropBlanksEnd w) := by simp
  have hplain : ∀ c ∈ Text.dropBlanks base, isBaseChar c = true :=
    fun c hc => hbase c ((List.dropWhile_sublist _).subset hc)
  have hmarks : ∀ c ∈ "d=".toText, c ∉ "\t\r\n#".toText := by decide
  have hdelimiters : "\t\r\n#".toText ⊆ "?#&=+%\t\r\n".toText := by decide
  have hquery : (dropLineEnds ("d=".toText ++ token ++ Text.dropBlanksEnd w)).takeWhile
      (· ≠ .char '#') =
      "d=".toText ++ token ++ (dropLineEnds (Text.dropBlanksEnd w)).takeWhile (· ≠ .char '#') := by
    refine takeWhile_dropLineEnds_append (fun c hc => ?_) _
    rcases List.mem_append.mp hc with hname | htoken
    · exact hmarks c hname
    · exact fun hmem => (of_isLinkSafe (hsafe c htoken)).2.2 (hdelimiters hmem)
  rw [tokenOfLink, hstrip]
  simp only [if_pos hmark, queryOf_append hplain, hquery, tokenOfQuery?_append hne hsafe hw.cut]

/-- A token is found in a query. -/
theorem tokenOfLink_query (hfront : Text.isBlankText front = true)
    (hback : Text.isBlankText back = true) :
    tokenOfLink (front ++ ("d=".toText ++ token) ++ back) = .ok (some token) := by
  have hstrip : Text.strip (front ++ ("d=".toText ++ token) ++ back) = "d=".toText ++ token :=
    Text.strip_of_blank hfront hback (trim_append_token hne hsafe (by decide) "=".toText)
  have hmark : .char '?' ∉ "d=".toText ++ token := by
    intro hmem
    rcases List.mem_append.mp hmem with hname | htoken
    · exact absurd hname (by decide)
    · exact (of_isLinkSafe (hsafe '?' htoken)).2.2 (by decide)
  have hnamed : (Text.after? "d=".toText ("d=".toText ++ token)).isSome = true := by
    rw [Text.after?_eq_some_iff.mpr rfl]
    rfl
  have hfound : tokenOfQuery? ("d=".toText ++ token) = some token := by
    rw [← List.append_nil ("d=".toText ++ token)]
    exact tokenOfQuery?_append hne hsafe (Or.inl rfl)
  rw [tokenOfLink, hstrip]
  simp only [if_neg hmark, if_pos hnamed, hfound]

/-- A bare token is taken as it is. -/
theorem tokenOfLink_token (hfront : Text.isBlankText front = true)
    (hback : Text.isBlankText back = true) :
    tokenOfLink (front ++ token ++ back) = .ok (some token) := by
  have hstrip : Text.strip (front ++ token ++ back) = token :=
    Text.strip_of_blank hfront hback (trim_token hne hsafe)
  have hmark : .char '?' ∉ token := fun hmem =>
    (of_isLinkSafe (hsafe (.char '?') hmem)).2.2 (by decide)
  have hnamed : ¬ (Text.after? "d=".toText token).isSome = true := by
    intro hsome
    obtain ⟨value, hvalue⟩ := Option.isSome_iff_exists.mp hsome
    have heq : .char '=' ∈ token := by
      rw [Text.after?_eq_some_iff.mp hvalue]
      exact List.mem_append_left _ (by decide)
    exact (of_isLinkSafe (hsafe '=' heq)).2.2 (by decide)
  have hempty : ¬ token.isEmpty = true := by simpa using hne
  rw [tokenOfLink, hstrip, if_neg hmark, if_neg hnamed, if_neg hempty]

omit hne hsafe

/-! ## Links of sessions -/

/-- A session whose texts are made of characters has a link.  Its token is a nonempty text of
characters that stand for themselves in a link, and its first character tells of which kind it
is.  It is found in the link under any base that is plain ASCII without delimiters, before
further parameters or a fragment, in the query with its question mark or without,
and on its own, with any white space around. -/
theorem tokenOfLink_ofSession {s : Session} (hs : s.IsScalar) (compact : Bool)
    (hbase : ∀ c ∈ base, isBaseChar c = true) (hw : EndsToken w)
    (hfront : Text.isBlankText front = true) (hback : Text.isBlankText back = true) :
    ∃ link, Link.ofSession? base compact s = some link ∧
      tokenOfSession? compact s = some link.token ∧
      link.token ≠ [] ∧ (∀ c ∈ link.token, isLinkSafe c = true) ∧
      (link.token.head? = some (.char 'e') ∨ link.token.head? = some (.char 'b')) ∧
      (link.token.head? = some (.char 'b') ↔
        (∃ c ∈ payloadText compact s, 0xFF < c.toNat) ∨
          ∃ codes, Lzw.compress (payloadText compact s) = .ok codes ∧ ∃ k ∈ codes, 2 ^ 21 ≤ k) ∧
      tokenOfLink (front ++ (link.url ++ w) ++ back) = .ok (some link.token) ∧
      tokenOfLink (front ++ ("?d=".toText ++ link.token) ++ back) = .ok (some link.token) ∧
      tokenOfLink (front ++ ("d=".toText ++ link.token) ++ back) = .ok (some link.token) ∧
      tokenOfLink (front ++ link.token ++ back) = .ok (some link.token) := by
  -- All forms hold the same token, and the first octet of what is sent is a brace.
  obtain ⟨token, htoken⟩ := exists_tokenOfSession?_eq_some hs compact
  have hsafe : ∀ c ∈ token, isLinkSafe c = true :=
    fun c hc => isLinkSafe_of_mem_token (isTokenOf_of_tokenOfText? htoken) hc
  obtain ⟨t, ht⟩ := exists_payloadText_eq_cons compact s
  have hkinds := htoken
  rw [tokenOfSession?, ht] at hkinds
  replace hkinds := head?_token_brace hkinds
  rw [← ht] at hkinds
  have hne : token ≠ [] := by
    rintro rfl
    simp at hkinds
  refine ⟨Link.ofToken base token, by rw [Link.ofSession?, htoken]; rfl, htoken, hne, hsafe, ?_, ?_,
    tokenOfLink_url hne hsafe hbase hw hfront hback, ?_, tokenOfLink_query hne hsafe hfront hback,
    tokenOfLink_token hne hsafe hfront hback⟩
  · exact hkinds.imp And.right And.right
  · rw [← not_hasCompactForm_iff]
    show token.head? = _ ↔ _
    rcases hkinds with ⟨hform, hhead⟩ | ⟨hform, hhead⟩
    · simp [hform, hhead]
    · simp [hform, hhead]
  · -- The query alone is a link under the empty base.
    have hnone : ∀ c ∈ ([] : Text), isBaseChar c = true := by simp
    have hurl := tokenOfLink_url hne hsafe hnone (Or.inl rfl) hfront hback
    rwa [List.nil_append, List.append_nil] at hurl

/-- A base with a scheme, a user and a port, and white space in front. -/
def portalBase : Text := " https://me@styler.test:8080/a:b/".toText

/-- More parameters and a fragment, with characters that a base may not have. -/
def portalEnd : Text := "&x=[1]&d=no#?d=no ".toText

/-- A session that is shared under it. -/
def portalSession : Session :=
  Session.ofCode "A->>B: 日".toText mermaidMode

theorem tokenOfLink_ofSession_portal :
    portalSession.IsScalar ∧ (∀ c ∈ portalBase, isBaseChar c = true) ∧ EndsToken portalEnd ∧
      ∃ link, Link.ofSession? portalBase true portalSession = some link ∧
        link.token.head? = some (.char 'b') ∧
        tokenOfLink ("\t".toText ++ (link.url ++ portalEnd) ++ "\n ".toText) =
          .ok (some link.token) := by
  have hscalar : portalSession.IsScalar := by decide
  have hbase : ∀ c ∈ portalBase, isBaseChar c = true :=
    List.all_eq_true.mp (by decide : portalBase.all isBaseChar = true)
  have hend : EndsToken portalEnd := Or.inr ⟨_, Or.inl rfl⟩
  have hfront : Text.isBlankText "\t".toText = true := by decide
  have hback : Text.isBlankText "\n ".toText = true := by decide
  obtain ⟨link, hlink, -, -, -, -, hwide, hurl, -⟩ :=
    tokenOfLink_ofSession hscalar true hbase hend hfront hback
  exact ⟨hscalar, hbase, hend, link, hlink,
    hwide.mpr (Or.inl ⟨.char '日', by decide +kernel, by decide⟩), hurl⟩

end Lifeline.Share
