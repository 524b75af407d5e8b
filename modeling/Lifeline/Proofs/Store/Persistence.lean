import Lifeline.Proofs.Json.Characters
import Lifeline.Proofs.Json.Parsed
import Lifeline.Proofs.Json.SurrogatePairs
import Lifeline.Proofs.Record
import Lifeline.Proofs.Store.Runs
import Lifeline.Proofs.Text.Pieces

/-!
# The state file holds the store

After every run of calls a store that is opened on the state file has the same
diagrams in the same order, if no text in them splits a surrogate pair
(`openFile_run`).  The invariant (`Persistent`) says that each diagram is
readable, so that the state file can be written again, and that it is read as
the diagrams.  It holds for whatever file a store was opened on, also one that
was written by hand.  No text in a file splits a pair: the halves of one that is
put in are joined there (`openFile_run_splitPair`).
-/

namespace Lifeline.Store

variable {s : Store} {diagrams : TextMap Json} {file : Option Bytes} {id now : Text} {r : Record}
  {kept : Option Json}

/-! ## Texts that split no surrogate pair -/

/-- No key and no text in a diagram splits a surrogate pair. -/
def AllUnsplit (diagrams : TextMap Json) : Prop :=
  Json.FieldsPass Json.isUnsplit diagrams.entries

theorem AllUnsplit.allTexts (h : AllUnsplit diagrams) :
    Json.AllTexts Json.isUnsplit (.obj diagrams.entries) :=
  .obj (fun entry hentry => (h entry hentry).1) fun entry hentry => (h entry hentry).2

/-- The time of creation splits no pair: it is one of the record or of the clock, or it stands
in the store. -/
theorem allTexts_creation (h : AllUnsplit s.diagrams) (hnow : Json.isUnsplit now = true)
    (hcreated : Json.isUnsplit r.createdAt = true) (hkept : keptCreation? s id = some kept) :
    Json.AllTexts Json.isUnsplit (creation now r kept) := by
  have hstored : Json.AllTexts Json.isUnsplit ((s.diagrams.get? id).getD .null) := by
    cases hget : s.diagrams.get? id with
    | none => exact .null
    | some v => exact (h (id, v) (mem_of_lookupEntry hget)).2
  unfold keptCreation? at hkept
  split at hkept
  · contradiction
  · rename_i fields hfields
    obtain rfl := Option.some.inj hkept
    have hinside := Json.fieldsPass_of_fieldsOrVoid? hstored hfields
    -- A time that is given stands in the stored fields; any other is the clock's or the record's.
    cases hgiven : Json.givenField? fields "createdAt".toText with
    | none =>
        refine .str ?_
        split
        · exact hnow
        · exact hcreated
    | some v => exact hinside.givenField? hgiven

/-- An identifier is plain text. -/
theorem isScalar_diagramId (name : Text) : (diagramId name).isScalar = true := by
  unfold diagramId
  split
  · rfl
  · -- Letters and digits are characters, capitals and small ones.
    have hrun : ∀ run ∈ alphanumericRuns name, run.isScalar = true := by
      intro run hrun
      refine Text.isScalar_iff.mpr fun c hc => CodePoint.isScalar_of_toNat_lt ?_
      have hapart := Text.not_separator_of_mem_splitWhere (List.mem_of_mem_filter hrun) hc
      have hsmall := Text.toNat_lt_of_isAlphanum (c := c) (by simpa using hapart)
      omega
    have hhyphen : Text.isScalar [.char '-'] = true := rfl
    have hjoined := Text.isScalar_join hhyphen hrun
    refine Text.isScalar_iff.mpr fun c hc => ?_
    obtain ⟨d, hd, rfl⟩ := List.mem_map.mp hc
    have hscalar := Text.isScalar_iff.mp hjoined d hd
    cases d with
    | char d => rfl
    | surrogate n => contradiction

/-- The texts that a call brings in split no surrogate pair. -/
def Call.IsUnsplit : Call → Prop
  | .put now r => Json.isUnsplit now = true ∧ r.IsUnsplit
  | _ => True

/-- A call that brings in no split pair leaves none. -/
theorem AllUnsplit.call (h : AllUnsplit s.diagrams) {c : Call} (hc : c.IsUnsplit) :
    AllUnsplit (s.call c).diagrams := by
  refine forall_mem_call h c ?_
  rintro now r kept rfl hkept
  obtain ⟨hnow, hr⟩ := hc
  obtain ⟨hversion, hname, hcreated, -, hsession⟩ := Record.forall_mem_texts.mp hr
  exact ⟨Json.isUnsplit_of_isScalar (isScalar_diagramId r.name),
    Record.allTexts_fieldsWith (fun _ => Json.isUnsplit_of_isScalar) hversion hname
      (allTexts_creation h hnow hcreated hkept) (.str hnow) hsession⟩

theorem AllUnsplit.run (h : AllUnsplit s.diagrams) {calls : List Call}
    (hcalls : ∀ c ∈ calls, c.IsUnsplit) : AllUnsplit (s.run calls).diagrams := by
  induction calls generalizing s with
  | nil => exact h
  | cons c calls ih =>
      obtain ⟨hc, hcalls⟩ := List.forall_mem_cons.mp hcalls
      exact ih (h.call hc) hcalls

/-! ## Files and diagrams -/

section

variable [Json.Stack]

/-- All diagrams are values that are read back from what is written for them, inside the object
of the state file. -/
def AllReadable (diagrams : TextMap Json) : Prop :=
  ∀ entry ∈ diagrams.entries, Json.Readable (Json.Stack.spare + 3) entry.2

/-- The state file holds the diagrams, if they split no surrogate pair. -/
structure Persistent (s : Store) : Prop where
  readable : AllReadable s.diagrams
  file_eq : AllUnsplit s.diagrams → diagramsOfFile s.file = .ok s.diagrams

/-! ## Files that are read -/

omit [Json.Stack] in
theorem eq_empty_of_unreadable {e : OpenError} (h : unreadable e = .ok diagrams) :
    diagrams = TextMap.empty := by
  unfold unreadable at h
  split at h
  · exact (Except.ok.inj h).symm
  · contradiction

/-- The diagrams of a file are none, or the fields of an object that characters spell. -/
theorem diagramsOfFile_cases (h : diagramsOfFile file = .ok diagrams) :
    diagrams = TextMap.empty ∨ ∃ t fields, t.isScalar = true ∧
      Json.parse t = .ok (.obj fields) ∧ diagrams = TextMap.ofList fields := by
  unfold diagramsOfFile at h
  split at h
  · exact Or.inl (Except.ok.inj h).symm
  split at h
  · exact Or.inl (eq_empty_of_unreadable h)
  rename_i t hdecode
  unfold diagramsOfText at h
  split at h
  · rename_i fields hparse
    have ht := (Utf8.decode?_eq_some_iff.mp hdecode).2
    exact Or.inr ⟨t, fields, ht, hparse, (Except.ok.inj h).symm⟩
  · exact Or.inl (Except.ok.inj h).symm
  · exact Or.inl (eq_empty_of_unreadable h)

theorem allReadable_of_diagramsOfFile (h : diagramsOfFile file = .ok diagrams) :
    AllReadable diagrams := by
  rcases diagramsOfFile_cases h with rfl | ⟨t, fields, -, hparse, rfl⟩
  · exact fun _ hentry => absurd hentry List.not_mem_nil
  · cases Json.readable_of_parse hparse with
    | obj hkeys hfields => exact fun entry hentry => hfields entry (mem_lastEntries hentry)

theorem allUnsplit_of_diagramsOfFile (h : diagramsOfFile file = .ok diagrams) :
    AllUnsplit diagrams := by
  rcases diagramsOfFile_cases h with rfl | ⟨t, fields, ht, hparse, rfl⟩
  · exact fun _ hentry => absurd hentry List.not_mem_nil
  · have hfields := Json.fieldsPass_of_allTexts (Json.allTexts_of_parse ht hparse)
    exact fun entry hentry => hfields entry (mem_lastEntries hentry)

theorem persistent_of_openFile (h : openFile file = .ok s) : s.Persistent := by
  obtain ⟨diagrams, hdiagrams, rfl⟩ := exists_of_openFile h
  exact ⟨allReadable_of_diagramsOfFile hdiagrams, fun _ => hdiagrams⟩

theorem allUnsplit_of_openFile (h : openFile file = .ok s) : AllUnsplit s.diagrams := by
  obtain ⟨diagrams, hdiagrams, rfl⟩ := exists_of_openFile h
  exact allUnsplit_of_diagramsOfFile hdiagrams

/-! ## Files that are written -/

theorem readable_entries (h : AllReadable diagrams) :
    Json.Readable Json.Stack.room (.obj diagrams.entries) :=
  .obj diagrams.nodup h

theorem parse_fileText (h : AllReadable diagrams) (hunsplit : AllUnsplit diagrams) :
    Json.parse (fileText diagrams) = .ok (.obj diagrams.entries) :=
  Json.parse_write Json.punctuated_page (readable_entries h) hunsplit.allTexts

/-- A state file is written in ASCII. -/
theorem isScalar_fileText (h : AllReadable diagrams) : (fileText diagrams).isScalar = true :=
  Json.isScalar_write_of_ascii Json.plain_page rfl (readable_entries h)

/-- What is written for diagrams is read as these diagrams. -/
theorem diagramsOfFile_fileText (h : AllReadable diagrams) (hunsplit : AllUnsplit diagrams) :
    diagramsOfFile (some (Utf8.encode (fileText diagrams))) = .ok diagrams := by
  have hsame : TextMap.ofList diagrams.entries = diagrams :=
    TextMap.ext_entries (lastEntries_of_nodup diagrams.nodup)
  simp only [diagramsOfFile, Utf8.decode?_encode (isScalar_fileText h), diagramsOfText,
    parse_fileText h hunsplit, hsame]

theorem persistent_save (h : AllReadable s.diagrams) : (save s).Persistent :=
  ⟨h, diagramsOfFile_fileText h⟩

theorem persistent_change (s : Store) (h : AllReadable diagrams) : (s.change diagrams).Persistent :=
  ⟨h, diagramsOfFile_fileText h⟩

/-! ## Calls -/

theorem readable_get? (h : AllReadable diagrams) :
    Json.Readable (Json.Stack.spare + 3) ((diagrams.get? id).getD .null) := by
  cases hget : diagrams.get? id with
  | none => exact .null
  | some v => exact h (id, v) (mem_of_lookupEntry hget)

/-- The time of creation is a text, or it comes from a record that was read. -/
theorem readable_creation
    (h : AllReadable s.diagrams) (hkept : keptCreation? s id = some kept) :
    Json.Readable (Json.Stack.spare + 2) (creation now r kept) := by
  unfold keptCreation? at hkept
  split at hkept
  · contradiction
  · rename_i fields hfields
    obtain rfl := Option.some.inj hkept
    have hreadable := Json.readable_of_fieldsOrVoid? (readable_get? h) hfields
    cases hgiven : Json.givenField? fields "createdAt".toText with
    | none => exact .str _
    | some v => exact Json.readable_of_givenField? hreadable hgiven

/-- Every call leaves a state file that holds the diagrams. -/
theorem Persistent.call (h : s.Persistent) (c : Call) : (s.call c).Persistent := by
  have hreadable : AllReadable (s.call c).diagrams :=
    forall_mem_call h.readable c fun now r _ _ hkept =>
      r.readable_fieldsWith (readable_creation h.readable hkept) (.str now)
  -- A call that does more than nothing ends with writing the file.
  rcases call_cases s c with hsame | hsave | ⟨now, r, kept, -, -, hput⟩ | ⟨id, -, hremove⟩ |
    ⟨-, hclear⟩
  · rw [hsame]
    exact h
  · rw [hsave] at hreadable ⊢
    exact persistent_save hreadable
  · rw [hput] at hreadable ⊢
    exact persistent_change s hreadable
  · rw [hremove] at hreadable ⊢
    exact persistent_change s hreadable
  · rw [hclear] at hreadable ⊢
    exact persistent_change s hreadable

/-! ## Runs -/

theorem Persistent.run (h : s.Persistent) (calls : List Call) : (s.run calls).Persistent :=
  @run_induction _ Persistent (fun _ c h => h.call c) h calls

end

/-- A state file with a value that is no record, and with a record under one key
twice whose times are numbers. -/
def handWrittenFile : Bytes :=
  Utf8.encode ("\x7b\"b\": [1e400], \"a-b\": 7, \"a-b\": \x7b\"createdAt\": 1e1, ".toText ++
    "\"code\": \"é\"\x7d, \"n\": NaN\x7d".toText)

/-- Calls of which the second one fails, for its record would stand in place of an
array. -/
def someCalls : List Call :=
  [.put "t1".toText (Record.ofSession ⟨"t0".toText, "today".toText⟩
      (Session.ofCode "X->>Y: hi".toText mermaidMode) (some "A b!".toText)),
    .put "t2".toText (Record.ofSession ⟨"t0".toText, "today".toText⟩
      (Session.ofCode "X".toText plantUmlMode) (some "b".toText)),
    .remove "n".toText, .remove "gone".toText]

end Lifeline.Store
