import Lifeline.Text.Blank

/-!
# Searching, replacing, cutting

Everything here scans a text once from left to right and never looks at the
same character twice: a replacement continues behind the piece it replaced.
-/

namespace Lifeline.Text

/-- The text contains `needle` as a contiguous piece. -/
def contains (needle : Text) : Text → Bool
  | [] => needle.isEmpty
  | c :: rest => needle.isPrefixOf (c :: rest) || contains needle rest

/-- The text behind a fixed beginning; `none` when it begins otherwise. -/
def after? : Text → Text → Option Text
  | [], t => some t
  | _ :: _, [] => none
  | w :: ws, c :: rest => if w = c then after? ws rest else none

/-- Replaces `old` by `new`; the number says how many characters of the last
occurrence are still to be passed over. -/
def replaceFrom (old new : Text) : Nat → Text → Text
  | _, [] => []
  | skip + 1, _ :: rest => replaceFrom old new skip rest
  | 0, c :: rest =>
      if old.isPrefixOf (c :: rest) then
        new ++ replaceFrom old new (old.length - 1) rest
      else
        c :: replaceFrom old new 0 rest

/-- Replaces every occurrence of `old`, a nonempty text, by `new`, from left to
right and without overlaps. -/
def replaceAll (old new t : Text) : Text :=
  replaceFrom old new 0 t

/-- Cuts a text at every separator, which belongs to no piece. -/
def splitWhere (isSeparator : CodePoint → Bool) : Text → List Text
  | [] => [[]]
  | c :: rest =>
      if isSeparator c then
        [] :: splitWhere isSeparator rest
      else
        match splitWhere isSeparator rest with
        | [] => [[c]]
        | piece :: pieces => (c :: piece) :: pieces

/-- The part before the first `separator` and the part behind it; `none` when
there is no separator. -/
def cutAt? (separator : CodePoint) : Text → Option (Text × Text)
  | [] => none
  | c :: rest =>
      if c = separator then
        some ([], rest)
      else
        (cutAt? separator rest).map fun (before, behind) => (c :: before, behind)

/-- The part before the first occurrence of `needle` and the part behind it,
where `found` recognises an occurrence at the beginning of a text by the
remainder behind it. -/
def cutWhere? (found : Text → Option Text) : Text → Option (Text × Text)
  | [] => (found []).map fun behind => ([], behind)
  | c :: rest =>
      match found (c :: rest) with
      | some behind => some ([], behind)
      | none => (cutWhere? found rest).map fun (before, behind) => (c :: before, behind)

/-- A place in a scanned text: an ordinary character, or a piece that was
recognised. -/
inductive Piece (β : Type) where
  | plain (c : CodePoint)
  | found (b : β)

/-- Reads a text as ordinary characters and recognised pieces.  `recognise`
gives the length of a piece that begins here, at least one, and what it is;
the number says how many characters of the last piece are still to be passed
over. -/
def piecesFrom {β : Type} (recognise : Text → Option (Nat × β)) : Nat → Text → List (Piece β)
  | _, [] => []
  | skip + 1, _ :: rest => piecesFrom recognise skip rest
  | 0, c :: rest =>
      match recognise (c :: rest) with
      | some (length, b) => .found b :: piecesFrom recognise (length - 1) rest
      | none => .plain c :: piecesFrom recognise 0 rest

/-- Reads a text as ordinary characters and recognised pieces, leftmost first
and without overlaps. -/
def pieces {β : Type} (recognise : Text → Option (Nat × β)) (t : Text) : List (Piece β) :=
  piecesFrom recognise 0 t

/-- The recognised pieces. -/
def Piece.found? {β : Type} : Piece β → Option β
  | .plain _ => none
  | .found b => some b

/-- The text of a place, where `render` writes a recognised piece. -/
def Piece.text {β : Type} (render : β → Text) : Piece β → Text
  | .plain c => [c]
  | .found b => render b

/-! ## Small facts -/

@[simp] theorem after?_nil (t : Text) : after? [] t = some t := by
  cases t <;> rfl

theorem after?_eq_some_iff {word t rest : Text} :
    after? word t = some rest ↔ t = word ++ rest := by
  induction word generalizing t with
  | nil => simp [eq_comm]
  | cons w ws ih =>
      cases t with
      | nil => simp [after?]
      | cons c u =>
          by_cases h : w = c
          · simp [after?, h, ih]
          · simp [after?, h, Ne.symm h]

theorem contains_eq_true_iff {needle t : Text} :
    contains needle t = true ↔ needle <:+: t := by
  induction t with
  | nil => simp [contains]
  | cons c u ih => simp [contains, ih, List.infix_cons_iff]

theorem splitWhere_ne_nil (isSeparator : CodePoint → Bool) (t : Text) :
    splitWhere isSeparator t ≠ [] := by
  cases t with
  | nil => simp [splitWhere]
  | cons c u =>
      unfold splitWhere
      split
      · simp
      · split <;> simp

/-- A separator between two texts separates their pieces. -/
theorem splitWhere_append_cons {isSeparator : CodePoint → Bool} {separator : CodePoint}
    (h : isSeparator separator = true) (s t : Text) :
    splitWhere isSeparator (s ++ separator :: t) =
      splitWhere isSeparator s ++ splitWhere isSeparator t := by
  induction s with
  | nil => simp [splitWhere, h]
  | cons c u ih =>
      by_cases hc : isSeparator c = true
      · simp [splitWhere, hc, ih]
      · simp only [List.cons_append, splitWhere, hc, Bool.false_eq_true, if_false, ih]
        cases hu : splitWhere isSeparator u with
        | nil => exact absurd hu (splitWhere_ne_nil isSeparator u)
        | cons piece pieces => simp

end Lifeline.Text
