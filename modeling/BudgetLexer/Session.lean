import BudgetLexer.Scanner.Scan

/-!
# Sessions

One reporter used step after step: for errors of its user, and for scans, which may also print the
tokens.

* `Step`: a step of a session.
* `Reporter.perform`: what a step leaves behind and writes.
-/

namespace BudgetLexer

/-- **A step of a session.** -/
inductive Step
  | error (line : LineArgument) (message : Text)
  | report (d : Diagnostic)
  | reset
  | quiet (on : Bool)
  | scan (source : Text)
  | run (source : Text)

/-- What a step leaves behind: the reporter, the tokens of a scan, the text written to standard
output, and the complaint of an error without a line. -/
structure StepResult where
  reporter : Reporter
  tokens : List (Token Nat) := []
  output : Text := []
  complaint : Option BadLine := none

namespace Reporter

/-- **One step of a session.** -/
def perform (r : Reporter) : Step → StepResult
  | .error line message =>
    match r.error line message with
    | .ok r => { reporter := r }
    | .error e => { reporter := r, complaint := some e }
  | .report d => { reporter := r.report d }
  | .reset => { reporter := r.reset }
  | .quiet on => { reporter := { r with quiet := on } }
  | .scan source =>
    let s := BudgetLexer.scan source r
    { reporter := s.reporter, tokens := s.tokens }
  | .run source =>
    let s := BudgetLexer.scan source r
    { reporter := s.reporter, output := tokenLines s.tokens }

/-- The text printed since an earlier state. -/
def printedSince (before after : Reporter) : Text :=
  diagnosticLines (after.printed.drop before.printed.length)

/-- What was written to standard error since an earlier state. -/
def errorOutput (before after : Reporter) : Text :=
  match after.destination with
  | .standardError => printedSince before after
  | .stream => []

/-- What was written to the stream since an earlier state, if there is a stream. -/
def streamOutput? (before after : Reporter) : Option Text :=
  match after.destination with
  | .standardError => none
  | .stream => some (printedSince before after)

end Reporter

end BudgetLexer
