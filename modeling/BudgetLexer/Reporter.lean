import BudgetLexer.Token

/-!
# Reporters

A reporter collects diagnostics, so that one pass over a source can bring up every error in it, and
prints each one as it comes in unless it is quiet.

* `Reporter.report`: record a diagnostic, and print it.
* `Reporter.error`: the same for a line and a message; the line must be an integer.
* `Reporter.reset`: forget what was recorded. What was printed stays printed.
-/

namespace BudgetLexer

/-- Where a reporter prints. -/
inductive Destination
  | standardError
  | stream
  deriving DecidableEq

/-- **A reporter**: the diagnostics it holds, and those it has printed. -/
structure Reporter where
  destination : Destination := .standardError
  quiet : Bool := false
  diagnostics : List Diagnostic := []
  printed : List Diagnostic := []
  deriving DecidableEq

/-- What a caller may hand to `Reporter.error` as a line: a value, or a list, which is refused like every
value that is no integer. Diagnostics that come ready-made are not checked; their lines are values
here. -/
inductive LineArgument
  | value (v : Value)
  | list
  deriving DecidableEq

/-- The name of a line argument's type. -/
def LineArgument.typeName : LineArgument → String
  | value .none => "NoneType"
  | value (.bool _) => "bool"
  | value (.int _) => "int"
  | value (.float _) => "float"
  | value (.text _) => "str"
  | list => "list"

/-- The complaint about a line that is no integer. -/
structure BadLine where
  found : LineArgument

/-- The message of that complaint. -/
def BadLine.message (e : BadLine) : Text :=
  "Error line must be int, got <class '".toList ++ e.found.typeName.toList ++ "'>".toList

/-- What is printed for diagnostics: a line for each. -/
def diagnosticLines (ds : List Diagnostic) : Text := ds.flatMap fun d => d.text ++ ['\n']

namespace Reporter

/-- A reporter that prints nothing. -/
def silent : Reporter := { quiet := true }

/-- Whether any diagnostic is held. -/
def hadError (r : Reporter) : Bool := !r.diagnostics.isEmpty

/-- **Record a diagnostic**, and print it unless quiet. -/
def report (r : Reporter) (d : Diagnostic) : Reporter :=
  { r with
    diagnostics := r.diagnostics ++ [d]
    printed := if r.quiet then r.printed else r.printed ++ [d] }

/-- Record an error at a line. A truth value is not taken for an integer. -/
def error (r : Reporter) (line : LineArgument) (message : Text) : Except BadLine Reporter :=
  match line with
  | .value (.int n) => .ok (r.report ⟨.int n, message⟩)
  | line => .error ⟨line⟩

/-- Forget the diagnostics held. -/
def reset (r : Reporter) : Reporter := { r with diagnostics := [] }

@[simp] theorem diagnostics_report (r : Reporter) (d : Diagnostic) :
    (r.report d).diagnostics = r.diagnostics ++ [d] := rfl

@[simp] theorem quiet_report (r : Reporter) (d : Diagnostic) : (r.report d).quiet = r.quiet := rfl

@[simp] theorem destination_report (r : Reporter) (d : Diagnostic) :
    (r.report d).destination = r.destination := rfl

@[simp] theorem hadError_eq_false_iff (r : Reporter) :
    r.hadError = false ↔ r.diagnostics = [] := by
  simp [hadError]

end Reporter

end BudgetLexer
