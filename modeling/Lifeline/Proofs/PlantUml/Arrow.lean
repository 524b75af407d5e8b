import Lifeline.PlantUml.Arrow
import Lifeline.Proofs.Text.Pieces
import Lifeline.Proofs.Text.Scanning
import Lifeline.Proofs.Text.Trimming

/-!
# Arrows as they are written

An arrow is its direction, one dash or two, one head or two, and perhaps a colour
behind the first dash.  The preferred way to read an arrow takes all of it when
what follows cannot belong to it, and its colour does not touch what it says.
-/

namespace Lifeline.PlantUml

variable {c : CodePoint} {t rest : Text}

/-- What stands between the brackets of a colour, behind the number sign. -/
structure Colour where
  text : Text
  ne_nil : text ≠ []
  bracket_notMem : .char ']' ∉ text

/-- A colour with its brackets. -/
def Colour.inBrackets (c : Colour) : Text :=
  .char '[' :: .char '#' :: (c.text ++ [.char ']'])

/-- How an arrow is written. -/
structure WrittenArrow extends ArrowKind where
  twoHeads : Bool
  colour? : Option Colour

namespace WrittenArrow

/-- The colour of an arrow with its brackets, or nothing. -/
def colourText (a : WrittenArrow) : Text :=
  match a.colour? with
  | none => []
  | some c => c.inBrackets

/-- The line of an arrow. -/
def shaft (a : WrittenArrow) : Text :=
  .char '-' :: (a.colourText ++ if a.dashed then [.char '-'] else [])

/-- An arrow as it is written. -/
def text (a : WrittenArrow) : Text :=
  if a.pointsLeft then
    (if a.twoHeads then [.char '<', .char '<'] else [.char '<']) ++ a.shaft
  else
    a.shaft ++ if a.twoHeads then [.char '>', .char '>'] else [.char '>']

end WrittenArrow

/-- A text that cannot continue an arrow.  One that points right ends at its heads,
one that points left could go on with another dash or a colour. -/
def WrittenArrow.EndsBefore (a : WrittenArrow) (t : Text) : Prop :=
  ∀ c, t.head? = some c → c ≠ '>' ∧ (a.pointsLeft = true → c ≠ '-' ∧ c ≠ '[')

/-! ## Colours -/

theorem afterColour?_append (c : Colour) (rest : Text) :
    afterColour? (c.inBrackets ++ rest) = some rest := by
  obtain ⟨d, text, hcons⟩ := List.exists_cons_of_ne_nil c.ne_nil
  have hbracket := c.bracket_notMem
  rw [hcons, List.mem_cons, not_or] at hbracket
  have hcut : Text.cutAt? ']' (text ++ .char ']' :: rest) = some (text, rest) :=
    Text.cutAt?_eq_some_iff.mpr ⟨rfl, hbracket.2⟩
  simp [Colour.inBrackets, hcons, afterColour?, Ne.symm hbracket.1, hcut]

theorem afterColour?_eq_none (h : ∀ c, t.head? = some c → c ≠ '[') : afterColour? t = none := by
  unfold afterColour?
  split
  · exact absurd rfl (h _ rfl)
  · rfl

theorem colourHere?_append (c : Colour) (rest : Text) :
    colourHere? (c.inBrackets ++ rest) = some (c.inBrackets.length, ()) := by
  rw [colourHere?, afterColour?_append, Option.map_some, List.length_append,
    Nat.add_sub_cancel_right]

theorem colourHere?_cons (hc : c ≠ '[') (t : Text) : colourHere? (c :: t) = none := by
  rw [colourHere?, afterColour?_eq_none, Option.map_none]
  rintro _ ⟨⟩
  exact hc

theorem dropColours_cons (hc : c ≠ '[') (t : Text) : dropColours (c :: t) = c :: dropColours t := by
  simp only [dropColours, Text.pieces, Text.piecesFrom, colourHere?_cons hc, List.flatMap_cons,
    Text.Piece.text, List.singleton_append]

theorem dropColours_append (c : Colour) (rest : Text) :
    dropColours (c.inBrackets ++ rest) = dropColours rest := by
  have hhere := colourHere?_append c rest
  have hpassed := Text.piecesFrom_append colourHere? (.char '#' :: (c.text ++ [.char ']'])) rest
  simp only [Colour.inBrackets, List.cons_append] at hhere hpassed ⊢
  simp only [dropColours, Text.pieces, Text.piecesFrom, hhere, List.flatMap_cons, Text.Piece.text,
    List.nil_append, List.length_cons, Nat.add_sub_cancel] at hpassed ⊢
  rw [hpassed]

namespace WrittenArrow

variable (a : WrittenArrow)

theorem dropColours_colourText (rest : Text) :
    dropColours (a.colourText ++ rest) = dropColours rest := by
  unfold colourText
  cases a.colour? with
  | none => rfl
  | some c => exact dropColours_append c rest

/-- An arrow without its colour. -/
def uncoloured : WrittenArrow :=
  { a with colour? := none }

theorem dropColours_shaft (rest : Text) :
    dropColours (a.shaft ++ rest) = a.uncoloured.shaft ++ dropColours rest := by
  have hdashes : dropColours ((if a.dashed then [.char '-'] else []) ++ rest) =
      (if a.dashed then [.char '-'] else []) ++ dropColours rest := by
    cases a.dashed with
    | false => rfl
    | true => exact dropColours_cons (by decide) rest
  rw [shaft, List.cons_append, dropColours_cons (by decide), List.append_assoc,
    dropColours_colourText, hdashes]
  rfl

theorem dropColours_text : dropColours a.text = a.uncoloured.text := by
  have hshaft : dropColours a.shaft = a.uncoloured.shaft := by
    have hnil := a.dropColours_shaft []
    rwa [List.append_nil, show dropColours [] = [] from rfl, List.append_nil] at hnil
  have hpoints : a.uncoloured.pointsLeft = a.pointsLeft := rfl
  have hheads : a.uncoloured.twoHeads = a.twoHeads := rfl
  unfold text
  rw [hpoints, hheads]
  cases a.pointsLeft with
  | true => cases a.twoHeads <;> simp [dropColours_cons, hshaft]
  | false =>
      cases a.twoHeads with
      | true => exact a.dropColours_shaft ['>', '>']
      | false => exact a.dropColours_shaft ['>']

/-! ## What an arrow says -/

theorem getLast?_shaft : ∃ c, a.shaft.getLast? = some c ∧ Text.isBlank c = false := by
  unfold shaft colourText
  cases a.dashed with
  | true => exact ⟨'-', by simp [List.getLast?_cons], by decide⟩
  | false =>
      cases a.colour? with
      | none => exact ⟨'-', rfl, by decide⟩
      | some c => exact ⟨']', by simp [Colour.inBrackets, List.getLast?_cons], by decide⟩

theorem trim_text : Text.Trim a.text where
  head := by
    unfold text shaft
    cases a.pointsLeft <;> cases a.twoHeads <;> exact ⟨_, rfl, by decide⟩
  last := by
    unfold text
    cases a.pointsLeft with
    | false => exact ⟨.char '>', by cases a.twoHeads <;> simp, by decide⟩
    | true =>
        obtain ⟨c, hlast, hc⟩ := a.getLast?_shaft
        exact ⟨c, by simp [hlast], hc⟩

/-- An arrow says what it was written to say, whatever its colour. -/
theorem ofText_text : ArrowKind.ofText a.text = a.toArrowKind := by
  rw [ArrowKind.ofText, Text.strip_of_trim a.trim_text, dropColours_text]
  obtain ⟨⟨pointsLeft, dashed⟩, twoHeads, colour?⟩ := a
  cases pointsLeft <;> cases dashed <;> cases twoHeads <;> rfl

/-- The arrows without a colour. -/
example : ([false, true].flatMap fun pointsLeft => [false, true].flatMap fun dashed =>
      [false, true].map fun twoHeads => (WrittenArrow.mk ⟨pointsLeft, dashed⟩ twoHeads none).text) =
    ["->".toText, "->>".toText, "-->".toText, "-->>".toText, "<-".toText, "<<-".toText,
      "<--".toText, "<<--".toText] := by
  rfl

/-! ## Reading an arrow -/

theorem head?_optionalChar_cons (c : CodePoint) (t : Text) :
    (optionalChar c (c :: t)).head? = some t := by
  simp [optionalChar]

theorem optionalChar_eq_singleton (h : ∀ b, t.head? = some b → b ≠ c) : optionalChar c t = [t] := by
  cases t with
  | nil => rfl
  | cons b t => rw [optionalChar, if_neg (h b rfl)]

/-- The preferred way to read a line takes its colour and both dashes. -/
theorem head?_shafts (h : ∀ b, rest.head? = some b → b ≠ '-' ∧ b ≠ '[') :
    (shafts (a.shaft ++ rest)).head? = some rest := by
  have hdashes : (optionalChar (.char '-') ((if a.dashed then [.char '-'] else []) ++ rest)).head? =
      some rest := by
    cases a.dashed with
    | true => exact head?_optionalChar_cons '-' rest
    | false =>
        rw [if_neg (by decide), List.nil_append,
          optionalChar_eq_singleton fun b hb => (h b hb).1]
        rfl
  rw [shaft, List.cons_append, shafts, List.append_assoc, colourText]
  cases a.colour? with
  | none =>
      -- Behind the dashes no bracket may follow, or it would be read as a colour.
      have hcolour : afterColour? ((if a.dashed then [.char '-'] else []) ++ rest) = none := by
        apply afterColour?_eq_none
        cases a.dashed with
        | true => simp
        | false => exact fun b hb => (h b hb).2
      simp only [List.nil_append, hcolour, hdashes]
  | some c =>
      simp only [afterColour?_append, List.head?_append, hdashes, Option.some_or]

theorem head?_flatMap_of_head? {α β : Type} {l : List α} {f : α → List β} {x : α} {y : β}
    (hl : l.head? = some x) (hf : (f x).head? = some y) : (l.flatMap f).head? = some y := by
  obtain ⟨more, rfl⟩ := List.head?_eq_some_iff.mp hl
  rw [List.flatMap_cons, List.head?_append, hf, Option.some_or]

/-- The preferred way to read an arrow takes all of it. -/
theorem head?_arrowEnds (h : a.EndsBefore rest) :
    (arrowEnds (a.text ++ rest)).head? = some rest := by
  unfold text
  cases hpoints : a.pointsLeft with
  | true =>
      have hshaft : (shafts (a.shaft ++ rest)).head? = some rest :=
        a.head?_shafts fun b hb => (h b hb).2 hpoints
      have hheads : ∀ heads, heads = [.char '<'] ∨ heads = [.char '<', .char '<'] →
          ∃ u, heads ++ (a.shaft ++ rest) = .char '<' :: u ∧
            (optionalChar (.char '<') u).head? = some (a.shaft ++ rest) := by
        rintro heads (rfl | rfl)
        · refine ⟨a.shaft ++ rest, rfl, ?_⟩
          rw [optionalChar_eq_singleton]
          · rfl
          · rintro _ ⟨⟩
            decide
        · exact ⟨.char '<' :: (a.shaft ++ rest), rfl, head?_optionalChar_cons '<' _⟩
      -- One head or two: the reader tries the second head first.
      obtain ⟨u, hu, hfirst⟩ := hheads (if a.twoHeads then ['<', '<'] else ['<'])
        (by cases a.twoHeads <;> simp)
      rw [if_pos rfl, List.append_assoc, hu, arrowEnds]
      refine head?_flatMap_of_head? hfirst (head?_flatMap_of_head? hshaft ?_)
      split
      · exact absurd rfl (h '>' rfl).1
      · exact absurd rfl (h '>' rfl).1
      · rfl
  | false =>
      have hheads : ∀ heads, heads = [.char '>'] ∨ heads = [.char '>', .char '>'] →
          ∃ u, heads ++ rest = .char '>' :: u ∧ (optionalChar (.char '>') u).head? = some rest := by
        rintro heads (rfl | rfl)
        · refine ⟨rest, rfl, ?_⟩
          rw [optionalChar_eq_singleton fun b hb => (h b hb).1]
          rfl
        · exact ⟨.char '>' :: rest, rfl, head?_optionalChar_cons '>' rest⟩
      obtain ⟨u, hu, hfirst⟩ := hheads (if a.twoHeads then ['>', '>'] else ['>'])
        (by cases a.twoHeads <;> simp)
      have hshaft : (shafts (a.shaft ++ .char '>' :: u)).head? = some (.char '>' :: u) := by
        apply a.head?_shafts
        rintro _ ⟨⟩
        decide
      rw [if_neg (by decide), List.append_assoc, hu, arrowEnds]
      · exact head?_flatMap_of_head? hshaft hfirst
      · rintro v hv
        exact absurd (List.cons.inj hv).1 (by decide)

theorem head?_arrows (h : a.EndsBefore rest) :
    (arrows (a.text ++ rest)).head? = some (a.text, rest) := by
  rw [arrows, List.head?_map, a.head?_arrowEnds h, Option.map_some, List.length_append,
    Nat.add_sub_cancel_right, List.take_left]

end WrittenArrow

end Lifeline.PlantUml
