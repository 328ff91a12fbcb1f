import BudgetLexer.Scanner.Scan

/-!
# Requests

The calls that a user of a scanner may make, in any order and any state.

* `Request`: a call with its arguments.
* `Scanner.perform`: what a request answers and leaves behind.
* `Scanner.newTokens`, `Scanner.newDiagnostics`: what was found since an earlier state.
-/

namespace BudgetLexer

/-- A counter of a scanner that a user may set. -/
inductive Counter
  | start
  | current
  | line
  | startLine

/-- **A call of a scanner.** -/
inductive Request
  | mark
  | set (counter : Counter) (n : Nat)
  | advance
  | peek
  | peekNext
  | isAtEnd
  | accept (expected : Text)
  | scanToken
  | string
  | number
  | identifier
  | blockComment
  | addToken (kind : Text) (literal : Value)
  | scanTokens

/-- The same call with another answer. -/
def Call.map {α β : Type} (f : α → β) (c : Call α) : Call β := ⟨c.result.map f, c.scanner⟩

namespace Scanner

/-- Set a counter. -/
def set (s : Scanner) (n : Nat) : Counter → Scanner
  | .start => { s with start := n }
  | .current => { s with current := n }
  | .line => { s with line := n }
  | .startLine => { s with startLine := n }

/-- **What a request answers and leaves behind.** Requests that only act answer nothing. -/
def perform (s : Scanner) : Request → Call Value
  | .mark => .ok .none s.mark
  | .set counter n => .ok .none (s.set n counter)
  | .advance => s.advance.map fun c => .text [c]
  | .peek => .ok (.text [s.peek]) s
  | .peekNext => .ok (.text [s.peekNext]) s
  | .isAtEnd => .ok (.bool s.isAtEnd) s
  | .accept expected => .ok (.bool (s.accept expected).1) (s.accept expected).2
  | .scanToken => s.scanToken.map fun _ => .none
  | .string => .ok .none s.string
  | .number => s.number.map fun _ => .none
  | .identifier => .ok .none s.identifier
  | .blockComment => .ok .none s.blockComment
  | .addToken name literal =>
    match Kind.ofName name with
    | .ok kind => .ok .none (s.addToken kind literal)
    | .error missing => .fail (.noKind missing) s
  | .scanTokens => s.scanTokens.map fun n : Nat => .int n

/-- The tokens added since an earlier state. -/
def newTokens (before after : Scanner) : List (Token Nat) :=
  after.tokens.drop before.tokens.length

/-- The diagnostics reported since an earlier state. -/
def newDiagnostics (before after : Scanner) : List Diagnostic :=
  after.reporter.diagnostics.drop before.reporter.diagnostics.length

end Scanner

end BudgetLexer
