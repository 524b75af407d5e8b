import Lifeline.Command.Program

/-!
# The program

The first word of the command line names a command, the others are its options.
What a command does is decided by its plan and by the run of that plan; here
its input is read, and what it ends with is printed and written.
-/

namespace Lifeline.Command

/-- Reads an input.  A file that is not there, or cannot be, is missing; any
other obstacle is passed on. -/
def Source.read : Source → IO Input
  | .standardInput => do
      let bytes ← (← IO.getStdin).readBinToEnd
      return .content bytes.toList
  | .file path => do
      if path.isImpossible then
        return .missing
      try
        let bytes ← IO.FS.readBinFile (String.ofText path.toText)
        return .content bytes.toList
      catch e =>
        match e with
        | .noFileOrDirectory _ _ _ => return .missing
        | _ => throw e
  | .none => return .missing

/-- Writes a file, and first the directories that lead to it. -/
def writeFile (path : Path) (text : Text) : IO Unit := do
  if path.isImpossible then
    throw (IO.userError (String.ofText PathError.impossible.message))
  unless path.directory.names.isEmpty do
    IO.FS.createDirAll (String.ofText path.directory.toText)
  IO.FS.writeFile (String.ofText path.toText) (String.ofText text)

/-- Writes and prints what a run ends with, and gives the exit code. -/
def Outcome.report (o : Outcome) : IO UInt32 := do
  if let some (path, text) := o.written then
    writeFile path text
  IO.print (String.ofText o.out)
  IO.eprint (String.ofText o.err)
  return o.exitCode.toUInt32

/-- The plan of a whole command line. -/
def planOf? [Json.Stack] : List String → Option Plan
  | [] => none
  | word :: words =>
      (Program.ofWord? word.toText).bind fun program => plan? program (words.map String.toText)

end Lifeline.Command

/-- Runs a command line. -/
def main (words : List String) : IO UInt32 := do
  match @Lifeline.Command.planOf? Lifeline.Json.Stack.usual words with
  | none => Lifeline.Command.misuse.report
  | some plan =>
      let input ← plan.source.read
      (Lifeline.Command.Outcome.ofResult (plan.runOn input)).report
