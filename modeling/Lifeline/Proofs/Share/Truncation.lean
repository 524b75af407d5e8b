import Lifeline.Proofs.Json.Prefix
import Lifeline.Proofs.Share.Ambiguity
import Lifeline.Proofs.Share.Faults

/-!
# Cut tokens

A token that lost its end carries no session.  Each stage of the reader refuses
what is left or hands on a proper beginning of what it should have handed on: of
the octets, of the codes, of the text.  The text of a payload is a JSON object,
and no proper beginning of it is JSON.
-/

namespace Lifeline.Share

variable {α β : Type} {part whole front later : List α}

/-! ## Proper beginnings -/

/-- A list is the beginning of another one and not all of it. -/
def ProperPrefix (part whole : List α) : Prop :=
  part <+: whole ∧ part ≠ whole

theorem properPrefix_iff : ProperPrefix part whole ↔ ∃ a later, whole = part ++ a :: later := by
  constructor
  · rintro ⟨⟨later, rfl⟩, hne⟩
    cases later with
    | nil => exact absurd (List.append_nil part).symm hne
    | cons a later => exact ⟨a, later, rfl⟩
  · rintro ⟨a, later, rfl⟩
    exact ⟨List.prefix_append part _, by simp⟩

theorem properPrefix_nil (hne : whole ≠ []) : ProperPrefix [] whole :=
  ⟨List.nil_prefix, hne.symm⟩

theorem ProperPrefix.append_left (h : ProperPrefix part whole) (front : List α) :
    ProperPrefix (front ++ part) (front ++ whole) := by
  obtain ⟨a, later, rfl⟩ := properPrefix_iff.mp h
  exact properPrefix_iff.mpr ⟨a, later, by rw [List.append_assoc]⟩

theorem ProperPrefix.map (h : ProperPrefix part whole) (f : α → β) :
    ProperPrefix (part.map f) (whole.map f) := by
  obtain ⟨a, later, rfl⟩ := properPrefix_iff.mp h
  exact properPrefix_iff.mpr ⟨f a, later.map f, by simp⟩

/-- A proper beginning of two lists in a row ends inside the first one or inside
the second one. -/
theorem ProperPrefix.append_cases (h : ProperPrefix part (front ++ later)) :
    ProperPrefix part front ∨ ∃ inside, part = front ++ inside ∧ ProperPrefix inside later := by
  obtain ⟨a, behind, hwhole⟩ := properPrefix_iff.mp h
  rcases List.append_eq_append_iff.mp hwhole with ⟨inside, hpart, hlater⟩ | ⟨rest, hfront, hbehind⟩
  · exact Or.inr ⟨inside, hpart, properPrefix_iff.mpr ⟨a, behind, hlater⟩⟩
  · cases rest with
    | nil =>
        rw [List.append_nil] at hfront
        refine Or.inr ⟨[], by rw [hfront, List.append_nil], properPrefix_iff.mpr ⟨a, behind, ?_⟩⟩
        exact hbehind.symm
    | cons b rest => exact Or.inl (properPrefix_iff.mpr ⟨b, rest, hfront⟩)

/-! ## Base 64 -/

namespace Base64

theorem octets_of_length_lt {ns : List Nat} (hns : ns.length < 2) : octets ns = [] := by
  cases ns with
  | nil => rfl
  | cons a ns =>
      cases ns with
      | nil => rfl
      | cons b ns =>
          simp only [List.length_cons] at hns
          omega

/-- Numbers that are no group, not even an incomplete one. -/
theorem length_lt_two {ns : List Nat} (hfour : ∀ a b c d rest, ns ≠ a :: b :: c :: d :: rest)
    (hthree : ∀ a b c, ns ≠ [a, b, c]) (htwo : ∀ a b, ns ≠ [a, b]) : ns.length < 2 := by
  rcases ns with _ | ⟨a, _ | ⟨b, _ | ⟨c, _ | ⟨d, rest⟩⟩⟩⟩
  · exact Nat.succ_pos 1
  · exact Nat.lt_succ_self 1
  · exact absurd rfl (htwo a b)
  · exact absurd rfl (hthree a b c)
  · exact absurd rfl (hfour a b c d rest)

theorem length_octets (ns : List Nat) : (octets ns).length = 3 * ns.length / 4 := by
  induction ns using octets.induct with
  | case1 a b c d rest ih =>
      simp only [octets, List.length_cons, ih]
      omega
  | case2 a b c => simp [octets]
  | case3 a b => simp [octets]
  | case4 ns hfour hthree htwo =>
      have hshort := length_lt_two hfour hthree htwo
      rw [octets_of_length_lt hshort, List.length_nil]
      omega

/-- The octets of the first digits are the first octets. -/
theorem octets_prefix_append (ns later : List Nat) : octets ns <+: octets (ns ++ later) := by
  induction ns using octets.induct with
  | case1 a b c d rest ih =>
      simp only [List.cons_append, octets, List.prefix_cons_inj]
      exact ih
  | case2 a b c =>
      cases later with
      | nil => exact List.prefix_refl _
      | cons d later => exact ⟨_, rfl⟩
  | case3 a b =>
      cases later with
      | nil => exact List.prefix_refl _
      | cons c later =>
          cases later with
          | nil => exact ⟨_, rfl⟩
          | cons d later => exact ⟨_, rfl⟩
  | case4 ns hfour hthree htwo =>
      rw [octets_of_length_lt (length_lt_two hfour hthree htwo)]
      exact List.nil_prefix

/-- A cut text in base 64 is refused, or it holds fewer octets. -/
theorem properPrefix_of_decode {bytes read : Bytes} {part : Text}
    (hpart : ProperPrefix part (encode bytes)) (h : decode part = .ok read) :
    ProperPrefix read bytes := by
  obtain ⟨c, behind, hwhole⟩ := properPrefix_iff.mp hpart
  rw [encode_eq_map_digit] at hwhole
  obtain ⟨front, later, hsextets, rfl, hlater⟩ := List.map_eq_append_iff.mp hwhole
  have hsmall : ∀ n ∈ front, n < 64 := by
    intro n hn
    exact lt_of_mem_sextets n (hsextets ▸ List.mem_append_left later hn)
  rw [decode_map_digit hsmall] at h
  split at h
  · contradiction
  · rename_i hgroup
    obtain rfl : octets front = read := Except.ok.inj h
    have hbytes : octets (front ++ later) = bytes := by rw [← hsextets, octets_sextets]
    refine ⟨hbytes ▸ octets_prefix_append front later, ?_⟩
    -- Without its end the text has too few digits for all the octets.
    intro hsame
    have hlength := congrArg List.length (hsame.trans hbytes.symm)
    have hmore : 0 < later.length := by
      rw [← List.length_map (f := digit), hlater]
      exact Nat.succ_pos _
    have hwholeGroup := length_sextets_mod_ne_one bytes
    rw [hsextets, List.length_append] at hwholeGroup
    rw [length_octets, length_octets, List.length_append] at hlength
    have hone : later.length = 1 := by omega
    rw [hone] at hlength hwholeGroup
    omega

end Base64

/-! ## Packed integers -/

namespace Packing

/-- Octets that all have their highest bit set end inside an integer. -/
theorem unpackFrom_ne_ok {value count : Nat} {bytes : Bytes} (hbytes : ∀ b ∈ bytes, 128 ≤ b.toNat)
    (hcount : 0 < count) (ns : List Nat) : unpackFrom value count bytes ≠ .ok ns := by
  induction bytes generalizing value count with
  | nil =>
      rw [unpackFrom, if_neg (Nat.ne_of_gt hcount)]
      simp
  | cons b bytes ih =>
      obtain ⟨hb, hbytes⟩ := List.forall_mem_cons.mp hbytes
      by_cases hlong : count < 3
      · rw [unpackFrom_more hlong hb]
        exact ih hbytes (Nat.succ_pos count)
      · rw [unpackFrom, if_pos (Nat.le_of_not_lt hlong)]
        simp

/-- Cut octets are refused, or they hold fewer integers. -/
theorem properPrefix_of_unpack {ns read : List Nat} {bytes part : Bytes}
    (hbytes : pack (ns.map Int.ofNat) = .ok bytes) (hpart : ProperPrefix part bytes)
    (h : unpack part = .ok read) : ProperPrefix read ns := by
  unfold unpack at h
  induction ns generalizing bytes part read with
  | nil =>
      obtain rfl : [] = bytes := Except.ok.inj hbytes
      exact absurd (List.prefix_nil.mp hpart.1) hpart.2
  | cons n ns ih =>
      obtain ⟨hn, later, hlater, rfl⟩ := pack_cons_eq_ok_iff.mp hbytes
      rcases hpart.append_cases with hcut | ⟨inside, rfl, hinside⟩
      · -- All octets of the integer but its last have the highest bit set.
        obtain ⟨front, last, hoctets, hfront, -⟩ := exists_octets_eq_append hn
        rw [hoctets] at hcut
        have hpartFront : part <+: front := by
          rcases hcut.append_cases with hfront | ⟨rest, rfl, hrest⟩
          · exact hfront.1
          · obtain ⟨c, behind, hlast⟩ := properPrefix_iff.mp hrest
            cases rest with
            | nil => rw [List.append_nil]
            | cons d rest => simp at hlast
        cases part with
        | nil =>
            obtain rfl : [] = read := Except.ok.inj h
            exact properPrefix_nil (List.cons_ne_nil n ns)
        | cons b part =>
            have hall : ∀ c ∈ b :: part, 128 ≤ c.toNat :=
              fun c hc => hfront c (hpartFront.subset hc)
            obtain ⟨hb, hpart⟩ := List.forall_mem_cons.mp hall
            rw [unpackFrom_more (by omega) hb] at h
            exact absurd h (unpackFrom_ne_ok hpart (by omega) read)
      · rw [unpackFrom_octets_append hn] at h
        cases hrest : unpackFrom 0 0 inside with
        | error e =>
            rw [hrest] at h
            contradiction
        | ok ms =>
            rw [hrest] at h
            obtain rfl : n :: ms = read := Except.ok.inj h
            exact (ih hlater hinside hrest).append_left [n]

end Packing

/-! ## Dictionary codes -/

namespace Lzw

variable {learned : Array Text} {w phrase t read : Text} {code : Int} {codes part : List Int}

theorem nextPhrase?_ne_nil (hlearned : Filled learned) (hw : w ≠ [])
    (h : nextPhrase? learned w code = some phrase) : phrase ≠ [] := by
  rcases watchedPhrase_eq hlearned hw code with ⟨c, u, hnext, -⟩ | ⟨hnone, -⟩
  · rw [hnext] at h
    rw [← Option.some.inj h]
    exact List.cons_ne_nil c u
  · rw [hnone] at h
    contradiction

theorem decompressFrom_cons_eq_ok_iff :
    decompressFrom learned w (code :: codes) = .ok t ↔
      ∃ phrase later, nextPhrase? learned w code = some phrase ∧
        decompressFrom (learned.push (w ++ phrase.take 1)) phrase codes = .ok later ∧
        t = phrase ++ later := by
  rw [decompressFrom]
  cases nextPhrase? learned w code with
  | none => simp
  | some phrase =>
      cases hlater : decompressFrom (learned.push (w ++ phrase.take 1)) phrase codes with
      | error e => simp [hlater]
      | ok later => simp [hlater, eq_comm]

theorem decompress_cons_eq_ok_iff :
    decompress (code :: codes) = .ok t ↔
      ∃ phrase later, phrase? #[] code = some phrase ∧
        decompressFrom #[] phrase codes = .ok later ∧ t = phrase ++ later := by
  rw [decompress]
  cases phrase? #[] code with
  | none => simp
  | some phrase =>
      cases hlater : decompressFrom #[] phrase codes with
      | error e => simp [hlater]
      | ok later => simp [hlater, eq_comm]

/-- Fewer codes give less text, by induction on them, since the phrase of the
next code is not empty. -/
theorem properPrefix_of_decompressFrom (hlearned : Filled learned) (hw : w ≠ [])
    (hpart : ProperPrefix part codes) (hcodes : decompressFrom learned w codes = .ok t)
    (h : decompressFrom learned w part = .ok read) : ProperPrefix read t := by
  obtain ⟨code, behind, rfl⟩ := properPrefix_iff.mp hpart
  clear hpart
  induction part generalizing learned w t read with
  | nil =>
      obtain rfl : [] = read := Except.ok.inj h
      rw [List.nil_append] at hcodes
      obtain ⟨phrase, later, hphrase, -, rfl⟩ := decompressFrom_cons_eq_ok_iff.mp hcodes
      have hne := nextPhrase?_ne_nil hlearned hw hphrase
      exact properPrefix_nil (List.append_ne_nil_of_left_ne_nil hne later)
  | cons first part ih =>
      rw [List.cons_append] at hcodes
      obtain ⟨phrase, later, hphrase, hlater, rfl⟩ := decompressFrom_cons_eq_ok_iff.mp hcodes
      obtain ⟨phrase', later', hphrase', hlater', rfl⟩ := decompressFrom_cons_eq_ok_iff.mp h
      obtain rfl : phrase = phrase' := Option.some.inj (hphrase.symm.trans hphrase')
      have hne := nextPhrase?_ne_nil hlearned hw hphrase
      have hpushed : Filled (learned.push (w ++ phrase.take 1)) :=
        hlearned.push (List.append_ne_nil_of_left_ne_nil hw _)
      exact (ih hpushed hne hlater' hlater).append_left phrase

theorem properPrefix_of_decompress (hpart : ProperPrefix part codes)
    (hcodes : decompress codes = .ok t) (h : decompress part = .ok read) :
    ProperPrefix read t := by
  obtain ⟨code, behind, rfl⟩ := properPrefix_iff.mp hpart
  cases part with
  | nil =>
      obtain rfl : [] = read := Except.ok.inj h
      obtain ⟨phrase, later, hphrase, -, rfl⟩ := decompress_cons_eq_ok_iff.mp hcodes
      have hne := phrase?_ne_nil filled_empty hphrase
      exact properPrefix_nil (List.append_ne_nil_of_left_ne_nil hne later)
  | cons first part =>
      obtain ⟨phrase, later, hphrase, hlater, rfl⟩ := decompress_cons_eq_ok_iff.mp hcodes
      obtain ⟨phrase', later', hphrase', hlater', rfl⟩ := decompress_cons_eq_ok_iff.mp h
      obtain rfl : phrase = phrase' := Option.some.inj (hphrase.symm.trans hphrase')
      have hne := phrase?_ne_nil filled_empty hphrase
      have hcut : ProperPrefix part (part ++ code :: behind) := properPrefix_iff.mpr ⟨_, _, rfl⟩
      exact (properPrefix_of_decompressFrom filled_empty hne hcut hlater hlater').append_left phrase

end Lzw

/-! ## Texts -/

/-- Cut octets of a text are refused, or they hold less text. -/
theorem Utf8.properPrefix_of_decode? {bytes : Bytes} {t read : Text}
    (hbytes : ProperPrefix bytes (Utf8.encode t)) (h : Utf8.decode? bytes = some read) :
    ProperPrefix read t := by
  obtain ⟨rfl, -⟩ := Utf8.decode?_eq_some_iff.mp h
  refine ⟨Utf8.prefix_of_encode_prefix hbytes.1, ?_⟩
  rintro rfl
  exact hbytes.2 rfl

variable {t read part token : Text}

theorem properPrefix_of_textOfToken_packed (htoken : packedToken t = .ok token)
    (hpart : ProperPrefix part token) (hb : part.head? ≠ some (.char 'b'))
    (h : textOfToken part = .ok read) : ProperPrefix read t := by
  obtain ⟨codes, bytes, hcodes, hbytes, rfl⟩ := exists_of_packedToken htoken
  rw [textOfToken_eq hb] at h
  unfold numbersOfToken at h
  cases hdecode : Base64.decode part with
  | error e => simp [hdecode] at h
  | ok octets =>
      cases hunpack : Packing.unpack octets with
      | error e => simp [hdecode, hunpack] at h
      | ok ns =>
          simp only [hdecode, hunpack] at h
          have hoctets := Base64.properPrefix_of_decode hpart hdecode
          have hns := Packing.properPrefix_of_unpack hbytes hoctets hunpack
          exact Lzw.properPrefix_of_decompress (hns.map Int.ofNat)
            (Lzw.decompress_of_compress hcodes) h

theorem properPrefix_of_textOfToken_fallback (htoken : fallbackToken? t = some token)
    (hpart : ProperPrefix part token) (hne : part ≠ []) (h : textOfToken part = .ok read) :
    ProperPrefix read t := by
  obtain ⟨-, rfl⟩ := fallbackToken?_eq_some_iff.mp htoken
  obtain ⟨c, rest, rfl⟩ := List.exists_cons_of_ne_nil hne
  obtain ⟨rfl, hrest⟩ := List.cons_prefix_cons.mp hpart.1
  have hcut : ProperPrefix rest (Base64.encode (Utf8.encode t)) :=
    ⟨hrest, fun hsame => hpart.2 (by rw [hsame])⟩
  obtain ⟨hdecode, hread⟩ := textOfToken_cons_b_eq_ok_iff.mp h
  exact Utf8.properPrefix_of_decode? (Base64.properPrefix_of_decode hcut hdecode)
    (Utf8.decode?_encode hread)

/-- A cut token is refused, or it holds less text, as long as the token cannot be
taken for one of the other kind. -/
theorem properPrefix_of_textOfToken (htoken : IsTokenOf token t)
    (hfirst : ∀ c, t.head? = some c → c ∉ [CodePoint.char 'l', .char 'm', .char 'n', .char 'o'])
    (ht : t ≠ []) (hpart : ProperPrefix part token) (hne : part ≠ [])
    (h : textOfToken part = .ok read) : ProperPrefix read t := by
  rcases htoken with hpacked | hfallback
  · apply properPrefix_of_textOfToken_packed hpacked hpart _ h
    obtain ⟨c, u, rfl⟩ := List.exists_cons_of_ne_nil ht
    obtain ⟨codes, bytes, hcodes, -, -⟩ := exists_of_packedToken hpacked
    have hc := Lzw.lt_seedSize_of_compress hcodes c List.mem_cons_self
    obtain ⟨d, part, rfl⟩ := List.exists_cons_of_ne_nil hne
    obtain ⟨later, hwhole⟩ := hpart.1
    have hhead := head?_packedToken hpacked
    rw [← hwhole] at hhead
    obtain rfl : d = _ := Option.some.inj hhead
    intro hd
    have hletter := (digit_eq_b_iff hc).mp (Option.some.inj hd)
    exact hfirst c rfl (mem_misleading_iff.mpr hletter)
  · exact properPrefix_of_textOfToken_fallback hfallback hpart hne h

/-- What is left of the text of a payload carries no session, for a fault that is caught. -/
theorem sessionOfText_of_properPrefix [Json.Stack] {compact : Bool} {s : Session}
    (hs : s.IsScalar) (hcut : ProperPrefix read (payloadText compact s)) :
    ∃ e, e ≠ .tooDeep ∧ sessionOfText read = .error (.json e) := by
  obtain ⟨t, ht⟩ := exists_payloadText_eq_cons compact s
  have hreadable : Json.Readable Json.Stack.room (payload compact s) := readable_payload
  have hunsplit : Json.AllTexts Json.isUnsplit (payload compact s) :=
    (allTexts_payload hs).imp fun _ ht => Json.isUnsplit_of_isScalar ht
  -- What is left ends inside the object of the payload.
  have hparse := Json.parse_ne_ok_of_prefix Json.punctuated_dense hreadable hunsplit
    ⟨_, t, ht, Or.inr (Or.inr rfl)⟩ hcut.1 hcut.2
  have hdeep := Json.parse_ne_tooDeep_of_prefix Json.punctuated_dense hreadable hunsplit hcut.1
  unfold sessionOfText
  cases hread : Json.parse read with
  | ok v => exact absurd hread (hparse v)
  | error e => exact ⟨e, fun he => hdeep (by rw [hread, he]), rfl⟩

/-- No proper beginning of the token of a session carries a session, and none of them makes
the reader fail. -/
theorem sessionOfToken_prefix_eq_none [Json.Stack] {compact : Bool} {s : Session}
    (hs : s.IsScalar) (htoken : tokenOfSession? compact s = some token) (hbegins : part <+: token)
    (hne : part ≠ token) : sessionOfToken part = .ok none := by
  unfold sessionOfToken
  by_cases hempty : part = []
  · rw [hempty]
    rfl
  have hsome : part.isEmpty = false := by simpa using hempty
  rw [hsome, if_neg Bool.false_ne_true]
  cases hread : textOfToken part with
  | error e =>
      rw [readToken_of_error hread]
      rfl
  | ok read =>
      obtain ⟨t, ht⟩ := exists_payloadText_eq_cons compact s
      -- What is read of a part is a proper part of the text that was sent.
      have hcut : ProperPrefix read (payloadText compact s) := by
        refine properPrefix_of_textOfToken (isTokenOf_of_tokenOfText? htoken) ?_ ?_
          ⟨hbegins, hne⟩ hempty hread
        · rw [ht]
          intro c hc
          obtain rfl : .char '\x7b' = c := Option.some.inj hc
          decide
        · rw [ht]
          exact List.cons_ne_nil _ t
      obtain ⟨e, he, hfault⟩ := sessionOfText_of_properPrefix hs hcut
      have hcaught := isCaughtBy_reader_iff.mpr
        ⟨Fault.noConfusion, fun hdeep => he (Fault.json.inj hdeep)⟩
      rw [readToken_of_ok hread, hfault]
      exact if_pos hcaught

theorem sessionOfToken_dropLast_literalSession :
    literalSession.IsScalar ∧ ∃ token, tokenOfSession? true literalSession = some token ∧
      token.dropLast <+: token ∧ token.dropLast ≠ token ∧
      @sessionOfToken .usual token.dropLast = .ok none := by
  obtain ⟨token, htoken⟩ := exists_tokenOfSession?_eq_some isScalar_literalSession true
  have hne : token.dropLast ≠ token := by
    intro hsame
    have hempty : token ≠ [] := by
      obtain ⟨t, ht⟩ := exists_payloadText_eq_cons true literalSession
      exact token_ne_nil (by rw [ht]; exact List.cons_ne_nil _ _) (isTokenOf_of_tokenOfText? htoken)
    have hlength := congrArg List.length hsame
    have hpos := List.length_pos_iff.mpr hempty
    rw [List.length_dropLast] at hlength
    omega
  exact ⟨isScalar_literalSession, token, htoken, List.dropLast_prefix token, hne,
    @sessionOfToken_prefix_eq_none _ _ .usual _ _ isScalar_literalSession htoken
      (List.dropLast_prefix token) hne⟩

end Lifeline.Share
