import Lifeline.Proofs.Mermaid.Conversion
import Lifeline.Proofs.Mermaid.Endpoints

/-!
# Arrows inside names

A message is read at the first arrow that makes sense of its line.  Names may hold hyphens,
and each arrow begins with one.  Behind the hyphen of a name a word follows, so of all
arrows only the one with a single dash and a cross can stand inside a name, where a word
begins with the letter x.  A message from such a name is cut there, and any other one at
its own arrow.
-/

namespace Lifeline.Mermaid

open Text (IsHyphenated)

variable {a b t arrow behind source rest : Text} {c : CodePoint}

/-- The line `a arrow b: t`, without spaces around the arrow. -/
def arrowLine (a arrow b t : Text) : Text :=
  a ++ (arrow ++ (b ++ ": ".toText ++ t))

/-- The arrow with a single dash and a cross. -/
def crossArrow : Text := "-x".toText

/-! ## Behind the arrow -/

/-- Everything up to the colon is the target, less a sign that belongs to the arrow. -/
theorem behindArrow?_append (hne : behind ≠ []) (hcolon : .char ':' ∉ behind) (label : Text) :
    behindArrow? (behind ++ .char ':' :: label) =
      some (Text.strip (withoutSign behind), Text.strip label) := by
  obtain ⟨⟨target, text⟩, hread⟩ := exists_behindArrow? hne hcolon label
  obtain ⟨front, label', hcut, -, hfront, rfl, rfl⟩ := behindArrow?_eq_some hread
  have hhere : Text.cutAt? ':' (behind ++ .char ':' :: label) = some (behind, label) :=
    Text.cutAt?_eq_some_iff.mpr ⟨rfl, hcolon⟩
  have hthere : Text.cutAt? ':' (behind ++ .char ':' :: label) = some (front, label') :=
    Text.cutAt?_eq_some_iff.mpr ⟨hcut, hfront⟩
  obtain ⟨rfl, rfl⟩ := Prod.mk.inj (Option.some.inj (hhere.symm.trans hthere))
  exact hread

theorem withoutSign_suffix (t : Text) : withoutSign t <:+ t := by
  unfold withoutSign
  split
  · split
    · exact List.suffix_cons _ _
    · exact List.suffix_refl _
  · exact List.suffix_refl _

theorem withoutSign_ne_nil (hne : t ≠ []) : withoutSign t ≠ [] := by
  unfold withoutSign
  split
  · split
    · exact List.cons_ne_nil _ _
    · exact List.cons_ne_nil _ _
  · exact hne

/-! ## The arrow -/

/-- An arrow in front of a word is the one that is read. -/
theorem behindSource?_arrow {answer : Text × Text} (harrow : arrow ∈ arrows)
    (hc : Text.isWord c = true) (h : behindArrow? (c :: rest) = some answer) :
    behindSource? (arrow ++ c :: rest) = some (arrow, answer) := by
  have hhead : '>' ≠ c := (Text.ne_of_isWord hc (by decide)).symm
  rw [behindSource?, dropBlanks_arrow harrow]
  -- A longer arrow that comes first in the list would need its second head here.
  revert arrow
  simp only [arrows, List.forall_mem_cons]
  simp [Text.after?, hhead, h]

/-- A hyphen in front of a word is an arrow only together with the letter x. -/
theorem behindSource?_hyphen (hc : Text.isWord c = true) (rest : Text) :
    behindSource? (.char '-' :: c :: rest) =
      if c = 'x' then (behindArrow? rest).map fun (target, text) => (crossArrow, target, text)
      else none := by
  have hdash : '-' ≠ c := (Text.ne_of_isWord hc (by decide)).symm
  have hhead : '>' ≠ c := (Text.ne_of_isWord hc (by decide)).symm
  have hround : ')' ≠ c := (Text.ne_of_isWord hc (by decide)).symm
  rw [behindSource?, Text.dropBlanks_cons_of_not_isBlank _ (by decide)]
  by_cases hx : c = 'x'
  · subst hx
    cases hread : behindArrow? rest with
    | none => simp [arrows, Text.after?, hread]
    | some answer => simp [arrows, Text.after?, crossArrow, hread]
  · simp [arrows, Text.after?, hdash, hhead, hround, hx, Ne.symm hx]

/-! ## The place of the cut -/

section

variable {more u : Text} (hname : IsHyphenated a) (ha : a = source ++ more)
  (hmore : ∀ c, more.head? = some c → c = '-') (hcross : ¬ crossArrow <:+: source)
include hname ha

theorem strip_source (hne : source ≠ []) : Text.strip source = source := by
  refine Text.strip_of_trim (Text.trim_of_forall hne fun c hc => hname.not_isBlank ?_)
  rw [ha]
  exact List.mem_append_left more hc

theorem colon_notMem_source : .char ':' ∉ source := by
  intro hc
  refine hname.notMem (d := ':') (by decide) (by decide) ?_
  rw [ha]
  exact List.mem_append_left more hc

include hmore hcross

/-- There is no arrow to stop at inside a part of a name that holds no cross. -/
theorem behindSource?_suffix {back : Text} (hback : back <:+ source) (hne : back ≠ [])
    (u : Text) : behindSource? (back ++ u) = none := by
  obtain ⟨front, rfl⟩ := hback
  obtain ⟨c, tail, rfl⟩ := List.exists_cons_of_ne_nil hne
  rw [List.append_assoc, List.cons_append] at ha
  cases hc : Text.isWord c with
  | true => exact behindSource?_cons hc (tail ++ u)
  | false =>
      have hhyphen : c = '-' := by
        by_contra hother
        refine hname.notMem hc hother ?_
        rw [ha]
        exact List.mem_append_right front List.mem_cons_self
      subst hhyphen
      rw [ha] at hname
      obtain ⟨d, rest, hrest, hd⟩ := hname.exists_cons_behind
      cases tail with
      | nil =>
          have hmark := hmore d (by rw [← List.nil_append more, hrest]; rfl)
          rw [hmark] at hd
          exact absurd hd (by decide)
      | cons e tail =>
          obtain rfl := (List.cons.inj hrest).1
          have hx : e ≠ 'x' := by
            rintro rfl
            exact hcross ⟨front, tail, by simp [crossArrow]⟩
          rw [List.cons_append, List.cons_append, behindSource?_hyphen hd, if_neg hx]

/-- Such a part of a name is the source when an arrow is read behind it. -/
theorem message?_source {target text : Text} (hne : source ≠ [])
    (hread : behindSource? u = some (arrow, target, text)) :
    message? (source ++ u) =
      some ⟨source, target, text, (Text.after? "--".toText arrow).isSome⟩ := by
  have hclass : ∀ c ∈ source, decide (c ≠ ':') = true :=
    Text.forall_ne_of_notMem (colon_notMem_source hname ha)
  have hskip : ∀ back, back <:+ source.tail → back ≠ [] → behindSource? (back ++ u) = none :=
    fun back hback hback' => behindSource?_suffix hname ha hmore hcross
      (hback.trans (List.tail_suffix source)) hback' u
  have hfewest := Text.fewestSome_append_of_suffix hne hclass hskip hread
  simp only [message?, hfewest, Option.map_some, strip_source hname ha hne]

end

/-! ## Messages between names -/

section

variable (ha : IsHyphenated a) (hb : IsHyphenated b) (harrow : arrow ∈ arrows)
include ha hb harrow

/-- The message is cut at its own arrow when its source holds no cross. -/
theorem message?_ownArrow (hcross : ¬ crossArrow <:+: a) (label : Text) :
    message? (a ++ (arrow ++ (b ++ .char ':' :: label))) =
      some ⟨a, b, Text.strip label, (Text.after? "--".toText arrow).isSome⟩ := by
  obtain ⟨c, tail, hcons, hc⟩ := hb.exists_cons
  have hne : b ≠ [] := by
    rw [hcons]
    exact List.cons_ne_nil c tail
  have hsign : withoutSign b = b := by
    rw [hcons, withoutSign_of_ne]
    exact not_or.mpr ⟨Text.ne_of_isWord hc (by decide), Text.ne_of_isWord hc (by decide)⟩
  have htarget : Text.strip (withoutSign b) = b := by
    rw [hsign]
    exact strip_source hb (List.append_nil b).symm hne
  have hread := behindArrow?_append hne (colon_notMem_source hb (List.append_nil b).symm) label
  rw [htarget, hcons, List.cons_append] at hread
  have hsource := behindSource?_arrow harrow hc hread
  obtain ⟨d, tail', hcons', -⟩ := ha.exists_cons
  have hne' : a ≠ [] := by
    rw [hcons']
    exact List.cons_ne_nil d tail'
  rw [← List.cons_append, ← hcons] at hsource
  exact message?_source ha (List.append_nil a).symm (by simp) hcross hne' hsource

/-- No white space and no colon stands between the beginning of the source and the colon. -/
theorem notMem_behind {more : Text} (hmore : more ⊆ a) :
    ∀ c ∈ more ++ (arrow ++ b), Text.isBlank c = false ∧ c ≠ ':' := by
  have hmarks : ∀ arrow ∈ arrows, (arrow.all fun c => !Text.isBlank c && c != ':') = true := by
    decide
  have hnames : ∀ {name : Text}, IsHyphenated name →
      ∀ c ∈ name, Text.isBlank c = false ∧ c ≠ ':' := by
    intro name hname c hc
    refine ⟨hname.not_isBlank hc, ?_⟩
    rintro rfl
    exact hname.notMem (d := ':') (by decide) (by decide) hc
  intro c hc
  rcases List.mem_append.mp hc with hc | hc
  · exact hnames ha c (hmore hc)
  · rcases List.mem_append.mp hc with hc | hc
    · simpa using List.all_eq_true.mp (hmarks arrow harrow) c hc
    · exact hnames hb c hc

/-- The message is cut inside its source at the first cross there. -/
theorem message?_crossArrow {source more : Text} (hsplit : a = source ++ (crossArrow ++ more))
    (hcross : ¬ crossArrow <:+: source) (label : Text) :
    message? (a ++ (arrow ++ (b ++ .char ':' :: label))) =
      some ⟨source, withoutSign (more ++ (arrow ++ b)), Text.strip label, false⟩ := by
  have hmore : more ⊆ a := by
    rw [hsplit]
    exact List.Subset.trans (List.subset_append_right _ _) (List.subset_append_right _ _)
  have hchars := notMem_behind ha hb harrow hmore
  have hsource : source ≠ [] := by
    rintro rfl
    obtain ⟨c, tail, hcons, hc⟩ := ha.exists_cons
    rw [hcons] at hsplit
    obtain ⟨rfl, -⟩ := List.cons.inj hsplit
    exact absurd hc (by decide)
  have hbehind : more ++ (arrow ++ b) ≠ [] := by
    obtain ⟨c, tail, rfl, -⟩ := hb.exists_cons
    simp
  have htarget : Text.strip (withoutSign (more ++ (arrow ++ b))) =
      withoutSign (more ++ (arrow ++ b)) := by
    refine Text.strip_of_trim (Text.trim_of_forall (withoutSign_ne_nil hbehind) fun c hc => ?_)
    exact (hchars c ((withoutSign_suffix _).subset hc)).1
  have hread := behindArrow?_append hbehind (fun hc => (hchars ':' hc).2 rfl) label
  -- Behind the cross the rest of the name, the arrow and the target are one target.
  have hcut : behindSource? (crossArrow ++ (more ++ (arrow ++ b) ++ .char ':' :: label)) =
      some (crossArrow, withoutSign (more ++ (arrow ++ b)), Text.strip label) := by
    show behindSource? (.char '-' :: .char 'x' :: (more ++ (arrow ++ b) ++ .char ':' :: label)) = _
    rw [behindSource?_hyphen (by decide), if_pos rfl, hread, htarget, Option.map_some]
  have hline : a ++ (arrow ++ (b ++ .char ':' :: label)) =
      source ++ (crossArrow ++ (more ++ (arrow ++ b) ++ .char ':' :: label)) := by
    rw [hsplit]
    simp
  have hmark : ∀ c, (crossArrow ++ more).head? = some c → c = '-' := by
    rintro _ ⟨⟩
    rfl
  rw [hline, message?_source ha hsplit hmark hcross hsource hcut]
  rfl

omit hb harrow in
/-- Trimming the line of a message trims its label. -/
theorem exists_strip_arrowLine (arrow b t : Text) : ∃ label, Text.strip label = Text.strip t ∧
    Text.strip (arrowLine a arrow b t) = a ++ (arrow ++ (b ++ .char ':' :: label)) := by
  obtain ⟨c, tail, rfl, hc⟩ := ha.exists_cons
  let body := c :: tail ++ (arrow ++ (b ++ [.char ':']))
  have htrim : Text.Trim body := by
    constructor
    · exact ⟨c, rfl, Text.isBlank_of_isWord hc⟩
    · exact ⟨':', by simp [body, List.getLast?_cons], by decide⟩
  refine ⟨Text.dropBlanksEnd (.char ' ' :: t), ?_, ?_⟩
  · rw [Text.strip_dropBlanksEnd, ← Text.strip_dropBlanks,
      Text.dropBlanks_cons_of_isBlank _ (by decide), Text.strip_dropBlanks]
  · have hstrip :
        Text.strip (body ++ (.char ' ' :: t)) = body ++ Text.dropBlanksEnd (.char ' ' :: t) :=
      Text.strip_append htrim [] (.char ' ' :: t)
    have hline : arrowLine (c :: tail) arrow b t = body ++ (.char ' ' :: t) := by
      simp [arrowLine, body]
    rw [hline, hstrip]
    simp [body]

omit hb in
/-- A name that an arrow follows declares nothing. -/
theorem declaration?_arrow (rest : Text) : declaration? (a ++ (arrow ++ rest)) = none := by
  obtain ⟨tail, rfl⟩ := exists_cons_of_mem_arrows harrow
  cases ha with
  | word h => exact declaration?_append h _
  | hyphen h _ =>
      rw [List.append_assoc, List.cons_append]
      exact declaration?_append h _

/-- Read as a diagram, strictly or not, the line is the message that it is read as. -/
theorem outlineWith_arrowLine {m : Message} (ht : .char '\n' ∉ t) (strict : Bool)
    (hread : ∀ label, Text.strip label = Text.strip t →
      message? (a ++ (arrow ++ (b ++ .char ':' :: label))) = some m) :
    (outlineWith strict (arrowLine a arrow b t)).map Outline.steps = .ok [⟨0, m⟩] := by
  obtain ⟨label, hlabel, hstrip⟩ := exists_strip_arrowLine ha arrow b t
  apply outlineWith_line strict
  · have harrow' : ∀ arrow ∈ arrows, .char '\n' ∉ arrow := by decide
    have ha' : .char '\n' ∉ a := ha.notMem (by decide) (by decide)
    have hb' : .char '\n' ∉ b := hb.notMem (by decide) (by decide)
    simp [arrowLine, ha', hb', harrow' arrow harrow, ht]
  · have hempty : (a ++ (arrow ++ (b ++ .char ':' :: label))).isEmpty = false := by
      obtain ⟨c, tail, rfl, -⟩ := ha.exists_cons
      rfl
    rw [hstrip, LineKind.ofLine, hempty, if_neg (by decide), declaration?_arrow ha harrow,
      hread label hlabel]

/-- A message between names with hyphens is read at its own arrow exactly when no word of its
source begins with the letter x behind a hyphen.  Otherwise it is cut there: it comes from
the part of the name in front, and goes to all that stands up to the colon. -/
theorem outlineWith_arrowLine_iff (ht : .char '\n' ∉ t) (strict : Bool) :
    ((outlineWith strict (arrowLine a arrow b t)).map Outline.steps =
        .ok [⟨0, ⟨a, b, Text.strip t, decide ("--".toText <+: arrow)⟩⟩] ↔
      ¬ crossArrow <:+: a) ∧
    ∀ source more, a = source ++ (crossArrow ++ more) → ¬ crossArrow <:+: source →
      (outlineWith strict (arrowLine a arrow b t)).map Outline.steps =
        .ok [⟨0, ⟨source, withoutSign (more ++ (arrow ++ b)), Text.strip t, false⟩⟩] := by
  have hdashed : ∀ arrow ∈ arrows,
      (Text.after? "--".toText arrow).isSome = decide ("--".toText <+: arrow) := by decide
  have hinside : ∀ source more, a = source ++ (crossArrow ++ more) → ¬ crossArrow <:+: source →
      (outlineWith strict (arrowLine a arrow b t)).map Outline.steps =
        .ok [⟨0, ⟨source, withoutSign (more ++ (arrow ++ b)), Text.strip t, false⟩⟩] := by
    intro source more hsplit hcross
    refine outlineWith_arrowLine ha hb harrow ht strict fun label hlabel => ?_
    rw [← hlabel]
    exact message?_crossArrow ha hb harrow hsplit hcross label
  refine ⟨⟨fun hown hcross => ?_, fun hcross => ?_⟩, hinside⟩
  · obtain ⟨source, more, hsplit, hfirst⟩ := Text.exists_first_infix (by decide) hcross
    have hcut := (hown.symm.trans (hinside source more hsplit hfirst))
    -- The source in front of the cross is shorter than the whole name.
    have hsource : a = source := by
      injection hcut with hsteps
      simpa using congrArg (List.map fun s : Step => s.message.source) hsteps
    have hlength := congrArg List.length hsplit
    rw [hsource] at hlength
    simp [crossArrow] at hlength
  · refine outlineWith_arrowLine ha hb harrow ht strict fun label hlabel => ?_
    rw [message?_ownArrow ha hb harrow hcross, hlabel, hdashed arrow harrow]

end

theorem isHyphenated_proxyXml : IsHyphenated "proxy-xml".toText := by
  have hproxy : Text.IsName "proxy".toText := ⟨by decide, List.all_eq_true.mp (by decide)⟩
  have hxml : Text.IsName "xml".toText := ⟨by decide, List.all_eq_true.mp (by decide)⟩
  exact .hyphen hproxy (.word hxml)

/-- Between the same names an arrow with a cross is read in its place or inside the source. -/
theorem outlineWith_arrowLine_iff_proxyXml :
    IsHyphenated "proxy-xml".toText ∧ IsHyphenated "x".toText ∧ "--x".toText ∈ arrows ∧
      .char '\n' ∉ "a-xb: c ".toText ∧
      ((outlineWith true "proxy-xml--xx: a-xb: c ".toText).map Outline.steps =
          .ok [⟨0, ⟨"proxy-xml".toText, "x".toText, "a-xb: c".toText, true⟩⟩] ↔
        ¬ crossArrow <:+: "proxy-xml".toText) ∧
      (outlineWith true "proxy-xml--xx: a-xb: c ".toText).map Outline.steps =
        .ok [⟨0, ⟨"proxy".toText, "ml--xx".toText, "a-xb: c".toText, false⟩⟩] := by
  have hx : IsHyphenated "x".toText := .word ⟨by decide, List.all_eq_true.mp (by decide)⟩
  have harrow : "--x".toText ∈ arrows := by decide
  have hline : .char '\n' ∉ "a-xb: c ".toText := by decide
  obtain ⟨hiff, hinside⟩ :=
    outlineWith_arrowLine_iff isHyphenated_proxyXml hx harrow hline true
  exact ⟨isHyphenated_proxyXml, hx, harrow, hline, hiff,
    hinside "proxy".toText "ml".toText rfl (by decide)⟩

/-- A message from `proxy-xml` to `db` comes from `proxy`, and goes to the rest of the name and
the arrow as well. -/
theorem outline_proxyXml :
    IsHyphenated "proxy-xml".toText ∧ IsHyphenated "db".toText ∧
      arrowLine "proxy-xml".toText "->>".toText "db".toText "load".toText =
        "proxy-xml->>db: load".toText ∧
      outline "proxy-xml->>db: load".toText =
        ⟨[⟨"proxy".toText, none, false⟩, ⟨"ml->>db".toText, none, false⟩],
          [⟨0, ⟨"proxy".toText, "ml->>db".toText, "load".toText, false⟩⟩]⟩ := by
  have hdb : IsHyphenated "db".toText := .word ⟨by decide, List.all_eq_true.mp (by decide)⟩
  exact ⟨isHyphenated_proxyXml, hdb, rfl, rfl⟩

end Lifeline.Mermaid
