import Lifeline.Command.Files
import Lifeline.Command.Options
import Lifeline.Document
import Lifeline.Mermaid.Outline
import Lifeline.Record.Import
import Lifeline.Service.Handler
import Lifeline.Share.Link

/-!
# The commands

Three commands work on one input each.  A command line is first read into a
plan, which says where the input is; the plan is then run on the input.  A run
ends with an exit code, what is printed, and perhaps a file to write.
-/

namespace Lifeline.Command

/-- The commands. -/
inductive Program where
  /-- Converts PlantUML diagrams and documents. -/
  | convert
  /-- Prints the outline of a diagram. -/
  | outline
  /-- Makes and reads share links. -/
  | share
deriving DecidableEq

/-- The command that a word names. -/
def Program.ofWord? : Text → Option Program
  | ['c', 'o', 'n', 'v', 'e', 'r', 't'] => some .convert
  | ['o', 'u', 't', 'l', 'i', 'n', 'e'] => some .outline
  | ['s', 'h', 'a', 'r', 'e'] => some .share
  | _ => none

/-- Where the input of a command is. -/
inductive Source where
  | standardInput
  | file (path : Path)
  | none
deriving DecidableEq

/-- The input of a command: octets, or nothing because the file is not there or
cannot be read. -/
inductive Input where
  | missing
  | refused (e : PathError)
  | content (bytes : Bytes)

/-- What a run ends with. -/
structure Outcome where
  exitCode : Nat
  out : Text
  err : Text
  /-- The path and the text of the file to write. -/
  written : Option (Path × Text)

/-- Why a run breaks off. -/
inductive Fault where
  | notUtf8
  /-- A text with a surrogate in it has no UTF-8. -/
  | noUtf8
  | link (fault : Share.LinkFault)
  | record (fault : Record.ImportFault)
  | path (e : PathError)

/-- The end of a run that prints something. -/
def printed (out : Text) : Outcome :=
  ⟨0, out ++ [.char '\n'], [], none⟩

/-- The end of a run that complains. -/
def complaint (exitCode : Nat) (message : Text) : Outcome :=
  ⟨exitCode, [], "Error: ".toText ++ message ++ [.char '\n'], none⟩

/-- The end of a command that was misused. -/
def misuse : Outcome :=
  ⟨2, [], "(usage)".toText, none⟩

/-- The wording of a fault. -/
def Fault.message : Fault → Text
  | .notUtf8 => "the input is not UTF-8".toText
  | .noUtf8 => "the session has a surrogate in it".toText
  | .link (.address e) => e.message?.getD "the link is not an address".toText
  | .link (.token _) => "the share token nests too deep".toText
  | .record _ => "the record nests too deep".toText
  | .path e => e.message

/-- The end of a run or of its break. -/
def Outcome.ofResult : Except Fault Outcome → Outcome
  | .ok o => o
  | .error e => complaint 1 e.message

/-- Lines of a log as they are printed. -/
def logText (ls : List Text) : Text :=
  ls.flatMap fun l => l ++ [.char '\n']

/-- Reads the text of a file that must be UTF-8; all line ends become line
feeds. -/
def readStrictly (bytes : Bytes) : Except Fault Text :=
  match Utf8.decode? bytes with
  | some t => .ok (Text.unifyLineEnds t)
  | none => .error .notUtf8

/-! ## Converting -/

/-- The options of the converting command. -/
def convertOptions : List OptionSpec :=
  [.value "input" (some (.char 'i')), .value "output" (some (.char 'o')), .switch "stdin",
    .switch "strict"]

/-- Ends the converting command: the result goes to a file or is printed, after
what was logged. -/
def deliver (output? : Option Text) (log result : Text) : Outcome :=
  match output? with
  | some path =>
      let path := Path.ofText path
      ⟨0, [], log ++ "  Output written to ".toText ++ path.toText ++ [.char '\n'],
        some (path, result)⟩
  | none => { printed result with err := log }

/-- Converts the text of standard input. -/
def convertStandardInput (strict : Bool) (output? : Option Text) (bytes : Bytes) :
    Except Fault Outcome :=
  match readStrictly bytes with
  | .error e => .error e
  | .ok t =>
      match PlantUml.convertWith strict t with
      | .ok mermaid => .ok (deliver output? [] mermaid)
      | .error e => .ok (complaint 2 e.message)

/-- Converts a file.  Only a PlantUML diagram as a whole is converted strictly;
otherwise what is not UTF-8 is left out. -/
def convertFile (strict : Bool) (output? : Option Text) (path : Path) (bytes : Bytes) :
    Except Fault Outcome :=
  if strict && Document.isPlantUml path then
    match readStrictly bytes with
    | .error e => .error e
    | .ok t =>
        match PlantUml.convertStrict t with
        | .ok mermaid => .ok (deliver output? [] mermaid)
        | .error e => .ok (complaint 2 e.message)
  else
    let result := Document.convertText path (Document.readLoosely bytes)
    .ok (deliver output? result.log result.text)

/-! ## Outlines -/

/-- The options of the outlining command. -/
def outlineOptions : List OptionSpec :=
  [.value "input" (some (.char 'i')), .choice "syntax" [mermaidMode, plantUmlMode],
    .switch "strict"]

/-- Prints the outline of a diagram. -/
def printOutline (strict : Bool) (mode : Text) (bytes : Bytes) : Except Fault Outcome :=
  match readStrictly bytes with
  | .error e => .error e
  | .ok code =>
      match Mermaid.readDiagram strict mode code with
      | .ok (_, outline) => .ok (printed (Json.write .page (.obj outline.toFields)))
      | .error e => .ok (complaint 2 e.message)

/-! ## Share links -/

/-- The options of the sharing command. -/
def shareOptions : List OptionSpec :=
  [.value "input" (some (.char 'i')), .choice "syntax" [mermaidMode, plantUmlMode],
    .value "decode" (some (.char 'd')), .value "base-url" none, .switch "compact"]

section

variable [Json.Stack]

/-- Prints the session behind a link. -/
def printShared (link : Text) : Except Fault Outcome :=
  match Share.tokenOfLink link with
  | .error e => .error (.link (.address e))
  | .ok token? =>
      let token := token?.getD []
      match Share.sessionOfToken token with
      | .error fault => .error (.link (.token fault))
      | .ok (some s) => .ok (printed (Json.write .page s.toJson))
      | .ok none =>
          let complaint := complaint 1 "no session data in share link".toText
          .ok { complaint with err := logText (Service.unreadableLog token) ++ complaint.err }

/-- Prints the link to what a payload holds. -/
def printLink (base : Text) (payload : Json) : Except Fault Outcome :=
  let carried := Json.write .dense payload
  match Share.tokenOfText? carried with
  | none => .error .noUtf8
  | some token =>
      let link := Share.Link.ofToken base token
      let warning :=
        if link.isLong then
          ["  ⚠ Share URL is ".toText ++ Text.ofNat link.length ++
            " characters; consider a JSON export instead".toText]
        else []
      .ok { printed link.url with err := logText (Service.fallbackLog carried ++ warning) }

/-- The payload of a diagram in a syntax.  A syntax that is given without a value
is sent as an empty list, which is read as Mermaid. -/
def diagramPayload (compact : Bool) (mode? : Option Text) (code : Text) : Json :=
  match mode? with
  | some mode => Share.payload compact (.ofCode code mode)
  | none =>
      Share.payloadWith [("s".toText, .arr [])] compact (.ofCode code mermaidMode)

/-- Prints the link to the session in a file: a record, or a diagram. -/
def shareFile (base : Text) (compact : Bool) (mode? : Option Text) (path : Path)
    (bytes : Bytes) : Except Fault Outcome :=
  match readStrictly bytes with
  | .error e => .error e
  | .ok t =>
      if path.ending = ".json".toText then
        match Record.importSource (.text t) with
        | .ok s => printLink base (Share.payload compact s)
        | .error (.session (.refused e)) => .ok (complaint 1 e.message)
        | .error fault => .error (.record fault)
      else
        printLink base (diagramPayload compact mode? t)

/-! ## Plans -/

/-- What a command line asks for: where the input is, and what to do with
it. -/
structure Plan where
  source : Source
  /-- How a file that is not there is called. -/
  missingLabel : Text
  run : Bytes → Except Fault Outcome

/-- The plan of the converting command. -/
def planConvert (o : Options) : Option Plan :=
  let strict := o.has "strict"
  let output? := o.nonempty? "output"
  let label := "Input file not found: ".toText
  if o.has "stdin" then
    some ⟨.standardInput, label, convertStandardInput strict output?⟩
  else
    (o.nonempty? "input").map fun path =>
      let path := Path.ofText path
      ⟨.file path, label, convertFile strict output? path⟩

/-- The plan of the outlining command. -/
def planOutline (o : Options) : Plan :=
  let mode := ((o.setting? "syntax").bind id).getD mermaidMode
  let run := printOutline (o.has "strict") mode
  let label := "file not found: ".toText
  match o.nonempty? "input" with
  | some path => ⟨.file (Path.ofText path), label, run⟩
  | none => ⟨.standardInput, label, run⟩

/-- The base address of the links that are made.  One that is given without a
value is shown as an empty list. -/
def baseAddress (o : Options) : Text :=
  match o.setting? "base-url" with
  | none => []
  | some (some base) => base
  | some none => "[]".toText

/-- The plan of the sharing command. -/
def planShare (o : Options) : Option Plan :=
  let label := "Input file not found: ".toText
  match o.nonempty? "decode" with
  | some link => some ⟨.none, label, fun _ => printShared link⟩
  | none =>
      (o.nonempty? "input").map fun path =>
        let path := Path.ofText path
        let mode? := (o.setting? "syntax").getD (some mermaidMode)
        ⟨.file path, label, shareFile (baseAddress o) (o.has "compact") mode? path⟩

/-- The plan of a command line; `none` for a misuse. -/
def plan? (program : Program) (words : List Text) : Option Plan :=
  match program with
  | .convert => (Options.read? convertOptions words).bind planConvert
  | .outline => (Options.read? outlineOptions words).map planOutline
  | .share => (Options.read? shareOptions words).bind planShare

end

/-- Runs a plan on its input. -/
def Plan.runOn (p : Plan) (input : Input) : Except Fault Outcome :=
  match p.source, input with
  | .file path, .missing => .ok (complaint 1 (p.missingLabel ++ path.toText))
  | _, .missing => p.run []
  | _, .refused e => .error (.path e)
  | _, .content bytes => p.run bytes

/-- The input that a plan asks for, among files. -/
def Source.among (standardInput : Bytes) (files : Files) : Source → Input
  | .standardInput => .content standardInput
  | .file path =>
      match files.read path with
      | .ok Option.none => .missing
      | .ok (some bytes) => .content bytes
      | .error e => .refused e
  | .none => .missing

/-- Runs a plan among files, and gives the files behind it. -/
def Plan.runAmong (p : Plan) (standardInput : Bytes) (files : Files) :
    Except Fault (Outcome × Files) := do
  let o ← p.runOn (p.source.among standardInput files)
  match o.written with
  | none => .ok (o, files)
  | some (path, t) =>
      match files.write path (Utf8.encode t) with
      | .ok files => .ok (o, files)
      | .error e => .error (.path e)

end Lifeline.Command
