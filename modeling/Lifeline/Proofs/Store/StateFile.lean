import Lifeline.Proofs.Json.Depth
import Lifeline.Proofs.Store.Persistence

/-!
# What opening and saving do with a state file

A store is opened on almost every sequence of octets, and it has the fields of the JSON
object that they hold, or no diagrams when they hold none.  The exceptions are octets that
are not UTF-8, and texts in which an integer is too long or that nest too deep
(`openFile_total`): what they raise is not caught.

Saving writes all that the store has.  So the JSON object of a state file is kept when the
store is closed again, and whatever else was in the file makes room for an empty object
(`save_openFile`).
-/

namespace Lifeline.Store

variable {s : Store} {diagrams : TextMap Json} {file : Option Bytes} {bytes : Bytes} {t : Text}

theorem unreadable_notUtf8 : unreadable .notUtf8 = .error .notUtf8 := rfl

theorem fileText_empty : fileText TextMap.empty = "\x7b\x7d".toText := rfl

section

variable [Json.Stack]

/-- The JSON value that a state file holds, if its octets are the UTF-8 of one. -/
def heldValue? (file : Option Bytes) : Option Json := do
  let bytes ← file
  let t ← Utf8.decode? bytes
  (Json.parse t).toOption

/-- The fields of the JSON object that a state file holds; none when it holds anything else
or nothing. -/
def heldFields (file : Option Bytes) : List (Text × Json) :=
  match heldValue? file with
  | some (.obj fields) => fields
  | _ => []

/-- What a state file held is there in the next one: it is the same file, or it holds the
same JSON value. -/
def Keeps (file next : Option Bytes) : Prop :=
  next = file ∨ ∃ v, heldValue? file = some v ∧ heldValue? next = some v

/-! ## Opening -/

theorem heldValue?_encode (ht : t.isScalar = true) :
    heldValue? (some (Utf8.encode t)) = (Json.parse t).toOption := by
  simp [heldValue?, Utf8.decode?_encode ht]

theorem entries_of_diagramsOfText (ht : t.isScalar = true) (h : diagramsOfText t = .ok diagrams) :
    diagrams.entries = heldFields (some (Utf8.encode t)) := by
  rw [heldFields, heldValue?_encode ht]
  unfold diagramsOfText at h
  split at h
  · rename_i fields hparse
    rw [← Except.ok.inj h, hparse]
    cases Json.readable_of_parse hparse with
    | obj hkeys hfields => exact lastEntries_of_nodup hkeys
  · rename_i v hother hparse
    rw [← Except.ok.inj h, hparse]
    cases v with
    | obj fields => exact absurd rfl (hother fields)
    | _ => rfl
  · rename_i e hparse
    rw [eq_empty_of_unreadable h, hparse]
    rfl

/-- A store has the diagrams of its file. -/
theorem entries_of_openFile (h : openFile file = .ok s) : s.diagrams.entries = heldFields file := by
  obtain ⟨diagrams, hdiagrams, rfl⟩ := exists_of_openFile h
  unfold diagramsOfFile at hdiagrams
  split at hdiagrams
  · rw [← Except.ok.inj hdiagrams]
    rfl
  · rename_i bytes
    split at hdiagrams
    · rw [unreadable_notUtf8] at hdiagrams
      contradiction
    · rename_i t hdecode
      obtain ⟨rfl, ht⟩ := Utf8.decode?_eq_some_iff.mp hdecode
      exact entries_of_diagramsOfText ht hdiagrams

/-- The text of a state file gives diagrams, unless its reading stops at an error that is not
caught. -/
theorem diagramsOfText_cases (t : Text) :
    ((∀ e, Json.parse t = .error e → e = .malformed) ∧
        ∃ diagrams, diagramsOfText t = .ok diagrams) ∨
      ∃ e, e ≠ .malformed ∧ Json.parse t = .error e ∧ diagramsOfText t = .error (.json e) := by
  unfold diagramsOfText
  cases Json.parse t with
  | ok v =>
      refine Or.inl ⟨nofun, ?_⟩
      cases v <;> exact ⟨_, rfl⟩
  | error e =>
      cases e with
      | malformed => exact Or.inl ⟨fun e he => (Except.error.inj he).symm, _, rfl⟩
      | longInteger => exact Or.inr ⟨_, by decide, rfl, rfl⟩
      | tooDeep => exact Or.inr ⟨_, by decide, rfl, rfl⟩

/-- A store is opened on any octets, in version zero and with the diagrams that they hold,
if there are some, or without diagrams.  Only octets that are not UTF-8 are refused, texts
with an integer that is too long, which have as many digits in a row, and texts that nest too
deep, which open as many brackets. -/
theorem openFile_total (bytes : Bytes) :
    (∃ s t, openFile (some bytes) = .ok s ∧ (bytes = Utf8.encode t ∧ t.isScalar = true) ∧
        (∀ e, Json.parse t = .error e → e = .malformed) ∧ s.version = 0 ∧
        s.diagrams.entries = heldFields (some bytes)) ∨
      (openFile (some bytes) = .error .notUtf8 ∧
        ¬ ∃ t, bytes = Utf8.encode t ∧ t.isScalar = true) ∨
      ∃ t, (bytes = Utf8.encode t ∧ t.isScalar = true) ∧
        (Json.parse t = .error .longInteger ∧ Json.HasLongDigits t ∧
            openFile (some bytes) = .error (.json .longInteger) ∨
          Json.parse t = .error .tooDeep ∧ Json.Stack.room < Json.openings t ∧
            openFile (some bytes) = .error (.json .tooDeep)) := by
  -- The octets are decoded before they are read: each step refuses for its own reason.
  cases hdecode : Utf8.decode? bytes with
  | none =>
      refine Or.inr (Or.inl ⟨?_, ?_⟩)
      · simp only [openFile, diagramsOfFile, hdecode, unreadable_notUtf8]
      · rintro ⟨t, rfl, ht⟩
        rw [Utf8.decode?_encode ht] at hdecode
        contradiction
  | some t =>
      obtain ⟨rfl, ht⟩ := Utf8.decode?_eq_some_iff.mp hdecode
      rcases diagramsOfText_cases t with ⟨hparse, diagrams, hdiagrams⟩ | ⟨e, he, hparse, hrefused⟩
      · have hopen : openFile (some (Utf8.encode t)) =
            .ok ⟨diagrams, 0, some (Utf8.encode t)⟩ := by
          simp only [openFile, diagramsOfFile, hdecode, hdiagrams]
        exact Or.inl ⟨_, t, hopen, ⟨rfl, ht⟩, hparse, rfl, entries_of_openFile hopen⟩
      · have hopen : openFile (some (Utf8.encode t)) = .error (.json e) := by
          simp only [openFile, diagramsOfFile, hdecode, hrefused]
        refine Or.inr (Or.inr ⟨t, ⟨rfl, ht⟩, ?_⟩)
        cases e with
        | malformed => contradiction
        | longInteger => exact Or.inl ⟨hparse, Json.hasLongDigits_of_parse hparse, hopen⟩
        | tooDeep => exact Or.inr ⟨hparse, Json.room_lt_openings_of_parse hparse, hopen⟩

/-- A file with nothing but an integer that is too long is refused. -/
theorem openFile_of_isWhole (ht : t.isScalar = true) (hwhole : Json.IsWhole t)
    (hlength : Json.maxIntegerDigits < t.length) :
    openFile (some (Utf8.encode t)) = .error (.json .longInteger) := by
  simp only [openFile, diagramsOfFile, Utf8.decode?_encode ht, diagramsOfText,
    Json.parse_of_isWhole hwhole hlength]
  rfl

/-- A file that begins with more brackets than there is room for is refused. -/
theorem openFile_of_brackets (ht : t.isScalar = true) :
    openFile (some (Utf8.encode (List.replicate (Json.Stack.room + 1) (.char '[') ++ t))) =
      .error (.json .tooDeep) := by
  have hscalar : Text.isScalar (List.replicate (Json.Stack.room + 1) (.char '[') ++ t) = true := by
    rw [Text.isScalar_append, Text.isScalar_replicate_char, ht, Bool.and_true]
  simp only [openFile, diagramsOfFile, Utf8.decode?_encode hscalar, diagramsOfText,
    Json.parse_replicate]
  rfl

/-! ## Saving -/

theorem heldValue?_save (h : openFile file = .ok s) :
    heldValue? (save s).file = some (.obj (heldFields file)) := by
  have hreadable : AllReadable s.diagrams := (persistent_of_openFile h).readable
  show heldValue? (some (Utf8.encode (fileText s.diagrams))) = _
  rw [heldValue?_encode (isScalar_fileText hreadable),
    parse_fileText hreadable (allUnsplit_of_openFile h), ← entries_of_openFile h]
  rfl

/-- A state file that was opened and is written again holds the same JSON value exactly when
this is an object.  Whatever else was in the file, an empty object takes its place. -/
theorem save_openFile (h : openFile file = .ok s) :
    (Keeps file (save s).file ↔ ∃ fields, heldValue? file = some (.obj fields)) ∧
      ((∀ fields, heldValue? file ≠ some (.obj fields)) →
        (save s).file = some (Utf8.encode "\x7b\x7d".toText)) := by
  have hsaved := heldValue?_save h
  refine ⟨⟨?_, ?_⟩, ?_⟩
  · rintro (hsame | ⟨v, hv, hnext⟩)
    · rw [hsame] at hsaved
      exact ⟨_, hsaved⟩
    · rw [hsaved] at hnext
      exact ⟨_, by rw [hv, ← hnext]⟩
  · rintro ⟨fields, hfields⟩
    have hheld : heldFields file = fields := by rw [heldFields, hfields]
    exact Or.inr ⟨_, hfields, by rw [hsaved, hheld]⟩
  · intro hother
    -- Without an object the store was opened without diagrams.
    have hnone : s.diagrams.entries = [] := by
      rw [entries_of_openFile h, heldFields]
      split
      · rename_i fields hfields
        exact absurd hfields (hother fields)
      · rfl
    have hempty : s.diagrams = TextMap.empty := TextMap.ext_entries hnone
    rw [save, hempty, fileText_empty]

end

/-- An octet that stands in no UTF-8 is no JSON object, and it does not count as no
diagrams. -/
theorem openFile_refuses :
    @heldValue? .usual (some [0xFF]) = none ∧
      @openFile .usual (some [0xFF]) = .error .notUtf8 := by
  have hdecode : Utf8.decode? [0xFF] = none := by decide
  constructor
  · simp [heldValue?, hdecode]
  · simp only [openFile, diagramsOfFile, hdecode]
    rfl

theorem save_openFile_handWrittenFile :
    ∃ s, @openFile .usual (some handWrittenFile) = .ok s ∧
      (@Keeps .usual (some handWrittenFile) (save s).file ↔
        ∃ fields, @heldValue? .usual (some handWrittenFile) = some (.obj fields)) ∧
      ((∀ fields, @heldValue? .usual (some handWrittenFile) ≠ some (.obj fields)) →
        (save s).file = some (Utf8.encode "\x7b\x7d".toText)) := by
  have hopens : (@openFile .usual (some handWrittenFile)).toOption.isSome = true := by
    decide +kernel
  cases hopen : @openFile .usual (some handWrittenFile) with
  | error e =>
      rw [hopen] at hopens
      contradiction
  | ok s => exact ⟨s, rfl, @save_openFile _ _ .usual hopen⟩

/-- The text of a state file that ends before its last brace. -/
def cutText : Text :=
  "\x7b\"login\": \x7b\"code\": \"A->>B: x\"\x7d".toText

theorem isScalar_cutText : cutText.isScalar = true :=
  Text.isScalar_toText _

theorem parse_cutText : @Json.parse .usual cutText = .error .malformed := by
  have hrefused : (match @Json.parse .usual cutText with
      | .error .malformed => true
      | _ => false) = true := by
    decide +kernel
  generalize @Json.parse .usual cutText = answer at hrefused ⊢
  cases answer with
  | ok v => cases hrefused
  | error e =>
      cases e with
      | malformed => rfl
      | longInteger => cases hrefused
      | tooDeep => cases hrefused

/-- Nothing of such a file is left when the store is closed. -/
theorem save_openFile_cutFile :
    @openFile .usual (some (Utf8.encode cutText)) =
      .ok ⟨TextMap.empty, 0, some (Utf8.encode cutText)⟩ ∧
      (save ⟨TextMap.empty, 0, some (Utf8.encode cutText)⟩).file =
        some (Utf8.encode "\x7b\x7d".toText) ∧
      ¬ @Keeps .usual (some (Utf8.encode cutText)) (some (Utf8.encode "\x7b\x7d".toText)) := by
  have hheld : @heldValue? .usual (some (Utf8.encode cutText)) = none := by
    rw [@heldValue?_encode _ .usual isScalar_cutText, parse_cutText]
    rfl
  refine ⟨?_, by rw [save, fileText_empty], ?_⟩
  · simp only [openFile, diagramsOfFile, Utf8.decode?_encode isScalar_cutText, diagramsOfText,
      parse_cutText]
    rfl
  · rintro (hsame | ⟨v, hv, -⟩)
    · have hlength := congrArg (Option.map List.length) hsame
      exact absurd hlength (by decide +kernel)
    · rw [hheld] at hv
      cases hv

end Lifeline.Store
