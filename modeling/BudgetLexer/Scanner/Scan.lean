import BudgetLexer.Numeral
import BudgetLexer.Scanner
import BudgetLexer.Vocabulary

/-!
# Scanning

Errors never stop a scan: a character that begins nothing is skipped, and a string that is not closed
is dropped, each with a report. The tokens always end with one of kind `eof`.

* `Scanner.identifier`, `Scanner.string`, `Scanner.blockComment`: the rest of a word, a string or a
  comment whose first characters are taken already.
* `Scanner.number`: the same for a number; the one of these that can fail, in a state whose lexeme does
  not begin with the digits.
* `Scanner.scanToken`: read one token, comment or blank.
* `Scanner.scanTokens`: read all that is left.
* `scan`: read a whole source.
-/

namespace BudgetLexer

namespace Scanner

/-! ## Lexemes -/

/-- Read the rest of a word. -/
def identifier (s : Scanner) : Scanner :=
  let s := s.skip (Extent.word s.rest)
  s.addToken (wordKind s.lexeme) .none

/-- Read the rest of a number. Its literal is the value nearest to what the lexeme writes. -/
def number (s : Scanner) : Call Unit :=
  let s := s.skip (Extent.number s.rest)
  match Numeral.read? s.lexeme with
  | some x => .ok () (s.addToken .number (.float x))
  | none => .fail (.notANumeral s.lexeme) s

/-- Read the rest of a string. Its lexeme has the quotes and its literal has not. -/
def string (s : Scanner) : Scanner :=
  let s := s.pass (Extent.stringBody s.rest)
  if s.isAtEnd then s.report "Unterminated string.".toList
  else
    let s := s.skip 1
    s.addToken .string (.text (Text.slice s.source (s.start + 1) (s.current - 1)))

/-- Read the rest of a block comment. -/
def blockComment (s : Scanner) : Scanner := s.pass (Extent.blockComment s.rest)

/-- Read the rest of a line comment; the newline after it stays. -/
def lineComment (s : Scanner) : Scanner := s.skip (Extent.line s.rest)

/-- Read the rest of an operator: the longer one if an equals sign follows. -/
def operator (s : Scanner) (alone withEqual : Kind) : Scanner :=
  match s.accept ['='] with
  | (true, s) => s.addToken withEqual .none
  | (false, s) => s.addToken alone .none

/-- Read what a slash begins: a comment, or the slash alone. -/
def slash (s : Scanner) : Scanner :=
  match s.accept ['/'] with
  | (true, s) => s.lineComment
  | (false, s) =>
    match s.accept ['*'] with
    | (true, s) => s.blockComment
    | (false, s) => s.addToken .slash .none

/-! ## Tokens -/

/-- The blanks between tokens, newlines apart. -/
def isSpace (c : Char) : Bool := c == ' ' || c == '\r' || c == '\t'

/-- Read what the character `c`, taken already, begins. -/
def scanFrom (s : Scanner) (c : Char) : Call Unit :=
  match mark? c, operator? c with
  | some kind, _ => .ok () (s.addToken kind .none)
  | none, some (alone, withEqual) => .ok () (s.operator alone withEqual)
  | none, none =>
    if c = '/' then .ok () s.slash
    else if isSpace c then .ok () s
    else if c = '\n' then .ok () { s with line := s.line + 1 }
    else if c = '"' then .ok () s.string
    else if isDigit c then s.number
    else if isLetter c then .ok () s.identifier
    else .ok () (s.report "Unexpected character.".toList)

/-- **Read the next token**, comment or blank. -/
def scanToken (s : Scanner) : Call Unit :=
  match s.advance with
  | ⟨.ok c, s⟩ => s.scanFrom c
  | ⟨.error f, s⟩ => .fail f s

/-! ## Scans -/

/-- Read token after token up to the end of the source. Each takes a character at least, so `n` is
enough when no more than `n` characters are left. -/
def scanLoop : Nat → Scanner → Call Unit
  | 0, s => .ok () s
  | n + 1, s =>
    if s.isAtEnd then .ok () s
    else
      match s.mark.scanToken with
      | ⟨.ok (), s⟩ => scanLoop n s
      | ⟨.error f, s⟩ => .fail f s

/-- Add the token that ends a scan. -/
def addEnd (s : Scanner) : Scanner := { s with tokens := s.tokens ++ [⟨.eof, [], .none, s.line⟩] }

/-- **Read all that is left**, and tell how many tokens are held then. -/
def scanTokens (s : Scanner) : Call Nat :=
  match scanLoop s.rest.length s with
  | ⟨.ok (), s⟩ => .ok s.addEnd.tokens.length s.addEnd
  | ⟨.error f, s⟩ => .fail f s

end Scanner

/-- **Scan a source**: the scanner when it is done, with the tokens and the reporter. Nothing fails on
the way, so there is no answer to look at. -/
def scan (source : Text) (reporter : Reporter) : Scanner :=
  (Scanner.scanTokens { source, reporter }).scanner

/-- What is printed for tokens: a line for each. -/
def tokenLines (ts : List (Token Nat)) : Text := ts.flatMap fun t => t.text ++ ['\n']

theorem tokenLines_cons (t : Token Nat) (ts : List (Token Nat)) :
    tokenLines (t :: ts) = t.text ++ '\n' :: tokenLines ts := by
  simp [tokenLines]

end BudgetLexer
