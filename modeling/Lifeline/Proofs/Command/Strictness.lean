import Lifeline.Command.Program
import Lifeline.Proofs.PlantUml.Emission
import Lifeline.Proofs.Text.Lines
import Lifeline.Proofs.Text.Utf8

/-!
# Strict runs of the converting command

A strict run refuses a diagram with a line that is not recognised, and any other diagram is
converted as without strictness.  This holds of standard input and of files that are one
diagram.  The blocks of a document are converted without strictness whether it is asked for
or not, so a strict run of a document never refuses a block.
-/

namespace Lifeline

namespace Document

/-- The diagrams that are converted in a document, in the order of the passes. -/
def convertedDiagrams (t : Text) : List Text :=
  ((blocks fencedHere? t ++ blocks bareHere? (convertBlocks fencedHere? t)).filter
    fun b => !b.isBlank).map fun b => Text.strip b.body

end Document

namespace Command

variable {specs : List OptionSpec} {given result : List (Text × Option Text)}
  {words words' : List Text} {t mermaid : Text} {bytes standardInput : Bytes} {files : Files}
  {o o' : Options} {p : Plan} {source : Source} {out : Outcome} {e : UnrecognizedLine}

/-! ## Command lines that ask for strictness -/

/-- A command line is read from left to right, so one that is complete may go on. -/
theorem readFrom_append (h : readFrom specs given words = some result) (more : List Text) :
    readFrom specs given (words ++ more) = readFrom specs result more := by
  fun_induction readFrom specs given words with
  | case1 given =>
      obtain rfl := Option.some.inj h
      rfl
  | case3 given w rest hw o hvalue v value? hset hclass ih =>
      rw [List.cons_append, readFrom, if_neg hw]
      simp only [hclass, hvalue, if_true, hset]
      exact ih h
  | case6 given w hw o hvalue v rest hplain hallows hclass ih =>
      rw [List.cons_append, List.cons_append, readFrom, if_neg hw]
      simp only [hclass, hvalue, if_true, hplain, hallows]
      exact ih h
  | case10 given w rest hw o value? hclass hvalue hnone ih =>
      rw [List.cons_append, readFrom, if_neg hw]
      simp only [hclass, hvalue, hnone]
      exact ih h
  | _ => contradiction

/-- The options ask for strictness, and otherwise for what the others ask for. -/
structure Stricter (o o' : Options) : Prop where
  strict : o'.has "strict" = true
  same : ∀ name, name ≠ "strict" → o'.setting? name = o.setting? name

/-- Any command line of the converting command may end with the switch. -/
theorem exists_stricter (h : Options.read? convertOptions words = some o) :
    ∃ o', Options.read? convertOptions (words ++ ["--strict".toText]) = some o' ∧
      Stricter o o' := by
  obtain ⟨given, hread, rfl⟩ := Option.map_eq_some_iff.mp h
  have hswitch : ∀ given, readFrom convertOptions given ["--strict".toText] =
      some (("strict".toText, none) :: given) := fun given => rfl
  refine ⟨⟨("strict".toText, none) :: given⟩, ?_, rfl, fun name hname => ?_⟩
  · rw [Options.read?, readFrom_append hread, hswitch]
    rfl
  · have hne : ("strict".toText == name.toText) = false := by
      refine beq_eq_false_iff_ne.mpr fun heq => hname (String.toList_inj.mp ?_).symm
      exact (List.map_inj_right fun _ _ => CodePoint.char.inj).mp heq
    rw [Options.setting?, List.find?_cons, hne]
    rfl

theorem Stricter.has_eq (h : Stricter o o') {name : String} (hname : name ≠ "strict") :
    o'.has name = o.has name := by
  rw [Options.has, Options.has, h.same name hname]

theorem Stricter.nonempty?_eq (h : Stricter o o') {name : String} (hname : name ≠ "strict") :
    o'.nonempty? name = o.nonempty? name := by
  rw [Options.nonempty?, Options.nonempty?, h.same name hname]

/-! ## Plans -/

/-- The source is a document with diagrams in it. -/
def Source.isDocument : Source → Bool
  | .file path => !Document.isPlantUml path
  | _ => false

/-- The diagrams that are converted in the text of a source. -/
def Source.diagrams (source : Source) (t : Text) : List Text :=
  if source.isDocument then Document.convertedDiagrams t else [t]

/-- The end of the run of a diagram that is refused. -/
def refusal (e : UnrecognizedLine) : Outcome :=
  complaint 2 e.message

/-- What the converting command does with the octets of a source. -/
def converting (strict : Bool) (output? : Option Text) : Source → Bytes → Except Fault Outcome
  | .file path, bytes => convertFile strict output? path bytes
  | _, bytes => convertStandardInput strict output? bytes

theorem planConvert_eq_some (h : planConvert o = some p) :
    (o.has "stdin" = true ∧ p.source = .standardInput ∨
        o.has "stdin" = false ∧ ∃ path, o.nonempty? "input" = some path ∧
          p.source = .file (Path.ofText path)) ∧
      p.run = converting (o.has "strict") (o.nonempty? "output") p.source := by
  unfold planConvert at h
  simp only at h
  split at h
  · rename_i hstdin
    obtain rfl := Option.some.inj h
    exact ⟨Or.inl ⟨hstdin, rfl⟩, rfl⟩
  · rename_i hstdin
    obtain ⟨path, hpath, rfl⟩ := Option.map_eq_some_iff.mp h
    exact ⟨Or.inr ⟨eq_false_of_ne_true hstdin, path, hpath, rfl⟩, rfl⟩

/-- The plan of a stricter command line reads the same source and is strict about it. -/
theorem Stricter.exists_plan (h : Stricter o o') (hplan : planConvert o = some p) :
    ∃ q, planConvert o' = some q ∧ q.source = p.source ∧
      q.run = converting true (o.nonempty? "output") p.source := by
  have hstdin := h.has_eq (show "stdin" ≠ "strict" by decide)
  have hinput := h.nonempty?_eq (show "input" ≠ "strict" by decide)
  have houtput := h.nonempty?_eq (show "output" ≠ "strict" by decide)
  obtain ⟨⟨hyes, hsource⟩ | ⟨hno, path, hpath, hsource⟩, -⟩ := planConvert_eq_some hplan
  · rw [hsource, planConvert, hstdin, hyes, h.strict, houtput]
    exact ⟨_, rfl, rfl, rfl⟩
  · rw [hsource, planConvert, hstdin, hno, hinput, hpath, h.strict, houtput]
    exact ⟨_, rfl, rfl, rfl⟩

/-! ## Runs on text -/

theorem readStrictly_encode (ht : t.isScalar = true) :
    readStrictly (Utf8.encode t) = .ok (Text.unifyLineEnds t) := by
  rw [readStrictly, Utf8.decode?_encode ht]

theorem exitCode_deliver (output? : Option Text) (log result : Text) :
    (deliver output? log result).exitCode = 0 := by
  cases output? <;> rfl

/-- A strict run refuses a diagram with a line that is not recognised. -/
theorem converting_of_refused (ht : t.isScalar = true) (hsource : source.isDocument = false)
    (h : PlantUml.convertStrict (Text.unifyLineEnds t) = .error e) (output? : Option Text) :
    converting true output? source (Utf8.encode t) = .ok (refusal e) := by
  have hinput : convertStandardInput true output? (Utf8.encode t) = .ok (refusal e) := by
    simp only [convertStandardInput, readStrictly_encode ht, PlantUml.convertWith, if_true, h]
    rfl
  cases source with
  | standardInput => exact hinput
  | none => exact hinput
  | file path =>
      have hplain : Document.isPlantUml path = true := by simpa [Source.isDocument] using hsource
      simp only [converting, convertFile, hplain, Bool.and_true, if_true, readStrictly_encode ht, h]
      rfl

/-- A diagram that is not refused is converted with strictness as without it. -/
theorem converting_of_accepted (ht : t.isScalar = true) (hsource : source.isDocument = false)
    (h : PlantUml.convertStrict (Text.unifyLineEnds t) = .ok mermaid) (strict : Bool)
    (output? : Option Text) :
    converting strict output? source (Utf8.encode t) = .ok (deliver output? [] mermaid) := by
  have hlenient := PlantUml.convert_eq_of_convertStrict h
  have hinput : convertStandardInput strict output? (Utf8.encode t) =
      .ok (deliver output? [] mermaid) := by
    cases strict with
    | true => simp only [convertStandardInput, readStrictly_encode ht, PlantUml.convertWith,
        if_true, h]
    | false =>
        simp only [convertStandardInput, readStrictly_encode ht, PlantUml.convertWith,
          Bool.false_eq_true, if_false, hlenient]
  -- Standard input and a file have their own readers, which agree on what is UTF-8.
  cases source with
  | standardInput => exact hinput
  | none => exact hinput
  | file path =>
      have hplain : Document.isPlantUml path = true := by simpa [Source.isDocument] using hsource
      cases strict with
      | true =>
          simp only [converting, convertFile, hplain, Bool.and_true, if_true,
            readStrictly_encode ht, h]
      | false =>
          simp only [converting, convertFile, Bool.false_and, Bool.false_eq_true, if_false,
            Document.convertText, hplain, if_true, Document.readLoosely,
            Utf8.decodeDropping_encode ht, hlenient]

/-- Documents are converted without strictness, and nothing in them is refused. -/
theorem exists_converting_of_document (hsource : source.isDocument = true)
    (output? : Option Text) (bytes : Bytes) :
    ∃ out, out.exitCode = 0 ∧ ∀ strict, converting strict output? source bytes = .ok out := by
  cases source with
  | standardInput => contradiction
  | none => contradiction
  | file path =>
      have hdocument : Document.isPlantUml path = false := by
        simpa [Source.isDocument] using hsource
      let result := Document.convertText path (Document.readLoosely bytes)
      refine ⟨deliver output? result.log result.text, exitCode_deliver _ _ _, fun strict => ?_⟩
      rw [converting, convertFile, hdocument, Bool.and_false, if_neg (by decide)]

/-! ## Runs among files -/

/-- Writes what a run has to write. -/
def Outcome.store (out : Outcome) (files : Files) : Except Fault (Outcome × Files) :=
  match out.written with
  | none => .ok (out, files)
  | some (path, t) =>
      match files.write path (Utf8.encode t) with
      | .ok files => .ok (out, files)
      | .error e => .error (.path e)

theorem runAmong_of_run (hinput : p.source.among standardInput files = .content bytes)
    (hrun : p.run bytes = .ok out) : p.runAmong standardInput files = out.store files := by
  have hrunOn : p.runOn (.content bytes) = .ok out := by
    rw [Plan.runOn]
    · cases p.source <;> exact hrun
  rw [Plan.runAmong, hinput, hrunOn]
  rfl

theorem eq_of_store {out' : Outcome} {files' : Files}
    (h : out.store files = .ok (out', files')) : out' = out := by
  unfold Outcome.store at h
  split at h
  · exact (Prod.mk.inj (Except.ok.inj h)).1.symm
  · split at h
    · exact (Prod.mk.inj (Except.ok.inj h)).1.symm
    · contradiction

/-- Strictness is honoured: the strict run ends with 2 if a diagram is refused, and otherwise
as the lenient run, with 0. -/
structure Honoured (lenient strict : Except Fault (Outcome × Files)) (refused : Prop) : Prop where
  exits : refused → ∃ out files, strict = .ok (out, files) ∧ out.exitCode = 2
  agrees : ¬ refused → strict = lenient ∧
    ∀ out files, strict = .ok (out, files) → out.exitCode = 0

/-- Some diagram of a source is refused. -/
def Source.IsRefused (source : Source) (t : Text) : Prop :=
  ∃ d ∈ source.diagrams t, ∃ e, PlantUml.convertStrict d = .error e

theorem isRefused_iff (hsource : source.isDocument = false) :
    source.IsRefused t ↔ ∃ e, PlantUml.convertStrict t = .error e := by
  rw [Source.IsRefused, Source.diagrams, hsource, if_neg (by decide)]
  simp only [List.mem_singleton, exists_eq_left]

/-- Standard input and a file that is one diagram are converted as strictly as is asked. -/
theorem honoured_of_diagram (ht : t.isScalar = true)
    (hinput : p.source.among standardInput files = .content (Utf8.encode t)) {q : Plan}
    (hsame : q.source = p.source) {output? : Option Text} {strict : Bool}
    (hp : p.run = converting strict output? p.source)
    (hq : q.run = converting true output? p.source) (hsource : p.source.isDocument = false) :
    Honoured (p.runAmong standardInput files) (q.runAmong standardInput files)
      (p.source.IsRefused (Text.unifyLineEnds t)) where
  exits := by
    intro hrefused
    obtain ⟨e, he⟩ := (isRefused_iff hsource).mp hrefused
    have hrun : q.run (Utf8.encode t) = .ok (refusal e) := by
      rw [hq, converting_of_refused ht hsource he]
    exact ⟨refusal e, files, runAmong_of_run (hsame ▸ hinput) hrun, rfl⟩
  agrees := by
    intro haccepted
    cases hconvert : PlantUml.convertStrict (Text.unifyLineEnds t) with
    | error e => exact absurd ((isRefused_iff hsource).mpr ⟨e, hconvert⟩) haccepted
    | ok mermaid =>
        have hlenient := runAmong_of_run hinput
          ((congrFun hp _).trans (converting_of_accepted ht hsource hconvert strict output?))
        have hstrict := runAmong_of_run (hsame ▸ hinput)
          ((congrFun hq _).trans (converting_of_accepted ht hsource hconvert true output?))
        refine ⟨hstrict.trans hlenient.symm, fun out files' hout => ?_⟩
        rw [eq_of_store (hstrict.symm.trans hout), exitCode_deliver]

/-- A strict run of the converting command is honoured where there is one diagram, and in a
document exactly when no block is refused, since the run of a document is the same with
strictness and without it. -/
theorem runAmong_strict_iff [Json.Stack]
    (hread : Options.read? convertOptions words = some o)
    (hread' : Options.read? convertOptions words' = some o') (hstricter : Stricter o o')
    (hplan : plan? .convert words = some p) (ht : t.isScalar = true)
    (hinput : p.source.among standardInput files = .content (Utf8.encode t)) :
    ∃ q, plan? .convert words' = some q ∧
      (Honoured (p.runAmong standardInput files) (q.runAmong standardInput files)
          (p.source.IsRefused (Text.unifyLineEnds t)) ↔
        (p.source.isDocument = true → ¬ p.source.IsRefused (Text.unifyLineEnds t))) ∧
      (p.source.isDocument = true →
        q.runAmong standardInput files = p.runAmong standardInput files) := by
  have hplan' : planConvert o = some p := by
    rw [plan?, hread] at hplan
    exact hplan
  obtain ⟨-, hp⟩ := planConvert_eq_some hplan'
  obtain ⟨q, hq, hsame, hrun⟩ := hstricter.exists_plan hplan'
  refine ⟨q, by rw [plan?, hread']; exact hq, ?_⟩
  -- A document is converted with exit code zero, so a refused block never stops it.
  cases hsource : p.source.isDocument with
  | false =>
      have hhonoured := honoured_of_diagram ht hinput hsame hp hrun hsource
      exact ⟨iff_of_true hhonoured fun h => absurd h (by decide), fun h => absurd h (by decide)⟩
  | true =>
      obtain ⟨out, hexit, hout⟩ := exists_converting_of_document hsource
        (o.nonempty? "output") (Utf8.encode t)
      have hlenient := runAmong_of_run hinput ((congrFun hp _).trans (hout _))
      have hstrict := runAmong_of_run (hsame ▸ hinput) ((congrFun hrun _).trans (hout true))
      have hzero : ∀ out' files', q.runAmong standardInput files = .ok (out', files') →
          out'.exitCode = 0 := by
        intro out' files' hend
        rw [eq_of_store (hstrict.symm.trans hend), hexit]
      refine ⟨⟨fun hhonoured _ hrefused => ?_, fun haccepted => ?_⟩,
        fun _ => hstrict.trans hlenient.symm⟩
      · obtain ⟨out', files', hend, htwo⟩ := hhonoured.exits hrefused
        rw [hzero out' files' hend] at htwo
        contradiction
      · exact ⟨fun hrefused => absurd hrefused (haccepted rfl),
          fun _ => ⟨hstrict.trans hlenient.symm, hzero⟩⟩

/-- A document with a block whose only line is not recognised. -/
def sketchText : Text :=
  "```plantuml\nwhat is this\n```\n".toText

/-- An empty system with the document in its working directory. -/
def sketchFiles : Files :=
  { home := [], directories := [], contents := [(["doc.md".toText], Utf8.encode sketchText)] }

/-- The command line that converts the document. -/
def sketchWords : List Text :=
  ["--input".toText, "doc.md".toText]

theorem isRefused_sketch :
    (Source.file (Path.ofText "doc.md".toText)).IsRefused (Text.unifyLineEnds sketchText) := by
  have hdiagrams : (Source.file (Path.ofText "doc.md".toText)).diagrams
      (Text.unifyLineEnds sketchText) = ["what is this".toText] := by
    decide +kernel
  refine ⟨"what is this".toText, ?_, ⟨"what is this".toText, 1⟩, by decide +kernel⟩
  rw [hdiagrams]
  exact List.mem_singleton_self _

theorem runAmong_strict_iff_sketch :
    ∃ p q, @plan? .usual .convert sketchWords = some p ∧
      @plan? .usual .convert (sketchWords ++ ["--strict".toText]) = some q ∧
      p.source.among [] sketchFiles = .content (Utf8.encode sketchText) ∧
      p.source.isDocument = true ∧ p.source.IsRefused (Text.unifyLineEnds sketchText) ∧
      ¬ Honoured (p.runAmong [] sketchFiles) (q.runAmong [] sketchFiles)
        (p.source.IsRefused (Text.unifyLineEnds sketchText)) ∧
      q.runAmong [] sketchFiles = p.runAmong [] sketchFiles := by
  have hread : Options.read? convertOptions sketchWords =
      some ⟨[("input".toText, some "doc.md".toText)]⟩ := rfl
  obtain ⟨o', hread', hstricter⟩ := exists_stricter hread
  have hplan : @plan? .usual .convert sketchWords =
      some ⟨.file (Path.ofText "doc.md".toText), "Input file not found: ".toText,
        convertFile false none (Path.ofText "doc.md".toText)⟩ := rfl
  have hinput : Source.among [] sketchFiles (.file (Path.ofText "doc.md".toText)) =
      .content (Utf8.encode sketchText) := rfl
  have ht : sketchText.isScalar = true := Text.isScalar_toText _
  obtain ⟨q, hq, hiff, hsame⟩ :=
    @runAmong_strict_iff _ _ _ _ _ _ _ _ .usual hread hread' hstricter hplan ht hinput
  exact ⟨_, q, hplan, hq, hinput, rfl, isRefused_sketch,
    fun hhonoured => hiff.mp hhonoured rfl isRefused_sketch, hsame rfl⟩

/-- The document is converted with an empty diagram, although its block is refused. -/
theorem strict_accepts_sketch :
    PlantUml.convertStrict "what is this".toText = .error ⟨"what is this".toText, 1⟩ ∧
      ∃ q, @plan? .usual .convert (sketchWords ++ ["--strict".toText]) = some q ∧
        q.runAmong [] sketchFiles =
          .ok (⟨0, "```mermaid\nsequenceDiagram\n```\n\n".toText,
            "  [convert] Converted 1 PlantUML block(s) to Mermaid\n".toText, none⟩,
            sketchFiles) :=
  ⟨by decide +kernel, _, rfl, rfl⟩

end Command
end Lifeline
