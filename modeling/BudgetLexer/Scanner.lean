import BudgetLexer.Extent
import BudgetLexer.Reporter

/-!
# Scanners

A scanner holds a source, a cursor into it, and what it has found. Its calls may be made in any state,
also with the cursor past the end of the source.

* `Scanner`: the state; `Scanner.rest` is the text from the cursor on.
* `Failure`, `Call`: why a call may fail, and what a call leaves behind whether it fails or not.
* `Scanner.advance`, `accept`, `peek`, `peekNext`, `isAtEnd`: the moves of the cursor.
* `Scanner.addToken`, `Scanner.report`: what is found.
-/

namespace BudgetLexer

/-- **A scanner.** The lexeme being scanned begins at `start`, on line `startLine`; the cursor is at
`current`, on line `line`. -/
structure Scanner where
  source : Text
  reporter : Reporter := .silent
  tokens : List (Token Nat) := []
  start : Nat := 0
  current : Nat := 0
  line : Nat := 1
  startLine : Nat := 1
  deriving DecidableEq

/-- Why a call fails. -/
inductive Failure
  | pastEnd
  | notANumeral (lexeme : Text)
  | noKind (missing : Kind.Missing)
  deriving DecidableEq

/-- The message of a failure. -/
def Failure.message : Failure → Text
  | pastEnd => "string index out of range".toList
  | notANumeral lexeme => "could not convert string to float: ".toList ++ quoted lexeme
  | noKind missing => missing.message

/-- **A call**: its answer or its failure, and the scanner after it. -/
structure Call (α : Type) where
  result : Except Failure α
  scanner : Scanner

/-- A call that answers. -/
def Call.ok {α : Type} (a : α) (s : Scanner) : Call α := ⟨.ok a, s⟩

/-- A call that fails. -/
def Call.fail {α : Type} (f : Failure) (s : Scanner) : Call α := ⟨.error f, s⟩

namespace Scanner

/-! ## The cursor -/

/-- The text from the cursor on. -/
def rest (s : Scanner) : Text := s.source.drop s.current

/-- Whether the cursor is at the end of the source, or past it. -/
def isAtEnd (s : Scanner) : Bool := s.source.length ≤ s.current

/-- The character under the cursor; at the end, the character of code point 0. -/
def peek (s : Scanner) : Char := s.rest.headD '\x00'

/-- The character after the one under the cursor; past the end, the character of code point 0. -/
def peekNext (s : Scanner) : Char := (s.rest.drop 1).headD '\x00'

/-- Move the cursor over `n` characters, without counting lines. -/
def skip (s : Scanner) (n : Nat) : Scanner := { s with current := s.current + n }

/-- Move the cursor over `n` characters, counting their newlines. -/
def pass (s : Scanner) (n : Nat) : Scanner :=
  { s with current := s.current + n, line := s.line + Text.newlines (s.rest.take n) }

/-- Take the character under the cursor. -/
def advance (s : Scanner) : Call Char :=
  match s.rest with
  | [] => .fail .pastEnd s
  | c :: _ => .ok c (s.skip 1)

/-- Move over the character under the cursor if it is, alone, the expected text; tell whether it
was. -/
def accept (s : Scanner) (expected : Text) : Bool × Scanner :=
  match s.rest with
  | [] => (false, s)
  | c :: _ => if expected = [c] then (true, s.skip 1) else (false, s)

/-- Let the next lexeme begin at the cursor. -/
def mark (s : Scanner) : Scanner := { s with start := s.current, startLine := s.line }

/-! ## Findings -/

/-- The text from the start of the lexeme to the cursor. -/
def lexeme (s : Scanner) : Text := Text.slice s.source s.start s.current

/-- Add a token for the lexeme. -/
def addToken (s : Scanner) (kind : Kind) (literal : Value) : Scanner :=
  { s with tokens := s.tokens ++ [⟨kind, s.lexeme, literal, s.startLine⟩] }

/-- Report an error on the line of the cursor. -/
def report (s : Scanner) (message : Text) : Scanner :=
  { s with reporter := s.reporter.report (.onLine s.line message) }

/-! ## Basic facts -/

theorem rest_eq_nil_iff (s : Scanner) : s.rest = [] ↔ s.isAtEnd = true := by
  simp [rest, isAtEnd]

theorem length_rest (s : Scanner) : s.rest.length = s.source.length - s.current := by
  simp [rest]

theorem rest_skip (s : Scanner) (n : Nat) : (s.skip n).rest = s.rest.drop n := by
  simp [rest, skip]

theorem rest_pass (s : Scanner) (n : Nat) : (s.pass n).rest = s.rest.drop n := by
  simp [rest, pass]

theorem lexeme_mark (s : Scanner) : s.mark.lexeme = [] := Text.slice_eq_nil (Nat.le_refl _)

end Scanner

end BudgetLexer
