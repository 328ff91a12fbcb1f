import BudgetLexer.CommandLine.FileTree
import BudgetLexer.Scanner.Scan

/-!
# The command line

What the `budget` command does with its arguments: it scans a source, prints the tokens to standard
output and the errors to standard error, and tells by its exit status how it went.

* `Command.ofArguments`: what the arguments ask for.
* `process`, `processFile`: the outcome for a source and for what a path leads to.
* `prompt`: the interactive prompt, line by line.
* `runCommand`: the outcome of a whole run.
-/

namespace BudgetLexer

/-- **What the arguments ask for.** -/
inductive Command
  | prompt
  | source (text : Text)
  | standardInput
  | file (path : Path)
  | unknown (name : Text)
  | tooMany

/-- Read the arguments, the name of the program apart. -/
def Command.ofArguments : List Text → Command
  | [] => prompt
  | [x] => if x = "run_prompt".toList then prompt else file (.ofText x)
  | [name, x] =>
    if name = "run".toList then if x = ['-'] then standardInput else source x
    else if name = "run_file".toList then file (.ofText x)
    else unknown name
  | _ => tooMany

/-- Why a run ends without an exit status. -/
inductive Escape
  | isDirectory
  | invalidUtf8
  | nameTooLong

/-- How a run ends. -/
inductive Ending
  | exit (status : Nat)
  | escape (e : Escape)

/-- **The outcome of a run.** -/
structure Outcome where
  stdout : Text := []
  stderr : Text := []
  ending : Ending

/-! ## Sources and files -/

/-- The outcome for a source. Its errors are told by the exit status too. -/
def process (source : Text) : Outcome :=
  let s := scan source {}
  { stdout := tokenLines s.tokens
    stderr := diagnosticLines s.reporter.printed
    ending := .exit (if s.reporter.hadError then 65 else 0) }

/-- Carriage returns, with or without a newline after them, become newlines. -/
def unifyNewlines : Text → Text
  | [] => []
  | '\r' :: '\n' :: t => '\n' :: unifyNewlines t
  | c :: t => (if c = '\r' then '\n' else c) :: unifyNewlines t

/-- The outcome for what a path leads to. -/
def processFile (path : Path) : Found → Outcome
  | .missing =>
    { stderr := "File at ".toList ++ path.text ++ " not found\n".toList, ending := .exit 66 }
  | .directory => { ending := .escape .isDirectory }
  | .file bytes =>
    match String.fromUTF8? bytes with
    | some s => process (unifyNewlines s.toList)
    | none => { ending := .escape .invalidUtf8 }
  | .tooLong => { ending := .escape .nameTooLong }

/-! ## The prompt -/

/-- What the prompt shows when it waits for a line. -/
def promptMark : Text := "> ".toList

/-- The lines that the prompt reads from a text: those that end in a newline and, unless the reading
is interrupted, what is left after the last of them, if anything is. -/
def promptLines (interrupted : Bool) (input : Text) : List Text :=
  let pieces := input.split '\n'
  pieces.dropLast ++ if interrupted then [] else pieces.getLast?.toList.filter (· ≠ [])

/-- The answer of the prompt to a line, none if the line ends it. Each line stands alone: the errors
of one are forgotten before the next. -/
def promptAnswer? (r : Reporter) (line : Text) : Option (Text × Reporter) :=
  if line = [] then none
  else
    let s := scan line r
    some (tokenLines s.tokens, s.reporter.reset)

/-- **The prompt**: what it writes to standard output, and its reporter at the end. It stops at the
first empty line, or when the lines run out. -/
def prompt (r : Reporter) : List Text → Text × Reporter
  | [] => (promptMark, r)
  | line :: lines =>
    match promptAnswer? r line with
    | none => (promptMark, r)
    | some (answer, r) =>
      let (output, r) := prompt r lines
      (promptMark ++ answer ++ output, r)

/-! ## A run -/

/-- What a run finds outside: the text on standard input, whether reading past its end is
interrupted, and the files. -/
structure Surroundings where
  input : Text
  interrupted : Bool
  tree : FileTree

/-- **The outcome of a run.** -/
def runCommand (w : Surroundings) : Command → Outcome
  | .prompt =>
    let (output, r) := prompt {} (promptLines w.interrupted w.input)
    { stdout := output, stderr := diagnosticLines r.printed, ending := .exit 0 }
  | .source text => process text
  | .standardInput => if w.interrupted then { ending := .exit 0 } else process w.input
  | .file path => processFile path (w.tree.find path)
  | .unknown name =>
    { stderr := "unrecognized command: ".toList ++ name ++ ['\n'], ending := .exit 66 }
  | .tooMany => { stdout := "Usage: budget [command] [script]\n".toList, ending := .exit 64 }

end BudgetLexer
