import BudgetLexer.CommandLine

/-!
# The program

The command line over the real standard streams and files. All that is decided is decided by
`Command.ofArguments`, `process`, `processFile` and `promptAnswer?`.
-/

namespace BudgetLexer

/-- Write the outcome of a run, and give its exit status. -/
def finish (o : Outcome) : IO UInt32 := do
  IO.print (String.ofList o.stdout)
  IO.eprint (String.ofList o.stderr)
  match o.ending with
  | .exit status => return status.toUInt32
  | .escape .isDirectory =>
    IO.eprintln "is a directory"
    return 1
  | .escape .invalidUtf8 =>
    IO.eprintln "not valid UTF-8"
    return 1
  | .escape .nameTooLong =>
    IO.eprintln "name too long"
    return 1

/-- Read a stream to its end. -/
partial def readAll (stream : IO.FS.Stream) (before : String) : IO String := do
  let line ← stream.getLine
  if line.isEmpty then return before else readAll stream (before ++ line)

/-- What a path leads to. A path that cannot be opened is too long or taken for missing, and one that
can be opened and not read is a directory. -/
def look (path : Path) : IO Found := do
  let opened ←
    try pure (Except.ok (← IO.FS.Handle.mk (String.ofList path.text) .read))
    catch
      | .invalidArgument .. => pure (Except.error Found.tooLong)
      | _ => pure (Except.error Found.missing)
  match opened with
  | .error found => return found
  | .ok handle => try return .file (← handle.readBinToEnd) catch _ => return .directory

/-- The prompt over the standard streams. -/
partial def converse (input : IO.FS.Stream) (r : Reporter) : IO UInt32 := do
  IO.print (String.ofList promptMark)
  (← IO.getStdout).flush
  let line := (← input.getLine).toList
  let line := if line.getLast? = some '\n' then line.dropLast else line
  match promptAnswer? r line with
  | none => return 0
  | some (answer, r') =>
    IO.print (String.ofList answer)
    IO.eprint (String.ofList (diagnosticLines (r'.printed.drop r.printed.length)))
    converse input r'

end BudgetLexer

open BudgetLexer

/-- The `budget` command. -/
def main (args : List String) : IO UInt32 := do
  match Command.ofArguments (args.map String.toList) with
  | .prompt => converse (← IO.getStdin) {}
  | .standardInput => finish (process (← readAll (← IO.getStdin) "").toList)
  | .file path => finish (processFile path (← look path))
  | command => finish (runCommand ⟨[], false, [], [], []⟩ command)
