import BudgetLexer.Kind

/-!
# Vocabulary

The words the language reserves, the characters that are a token on their own, and the operators that
may take an equals sign. The tables are listed in the order of their spellings, and are read-only.

* `keywords`, `marks`, `operators`: the tables.
* `wordKind`, `mark?`, `operator?`: what a word or a character stands for.
* `Table`: the two tables that callers may look up.
-/

namespace BudgetLexer

/-- The reserved words. There is a word for falsehood and none for truth. -/
def keywords : List (Text × Kind) :=
  [("and".toList, .wordAnd), ("class".toList, .wordClass), ("else".toList, .wordElse),
    ("false".toList, .wordFalse), ("for".toList, .wordFor), ("fun".toList, .wordFun),
    ("if".toList, .wordIf), ("nil".toList, .wordNil), ("or".toList, .wordOr),
    ("print".toList, .wordPrint), ("return".toList, .wordReturn), ("super".toList, .wordSuper),
    ("this".toList, .wordThis), ("var".toList, .wordVar), ("while".toList, .wordWhile)]

/-- The characters that are always a token on their own. -/
def marks : List (Char × Kind) :=
  [('(', .leftParen), (')', .rightParen), ('*', .star), ('+', .plus), (',', .comma),
    ('-', .minus), ('.', .dot), (';', .semicolon), ('{', .leftBrace), ('}', .rightBrace)]

/-- The characters that are a token alone or together with an equals sign, and the kind of either. -/
def operators : List (Char × Kind × Kind) :=
  [('!', .bang, .bangEqual), ('<', .less, .lessEqual), ('=', .equal, .equalEqual),
    ('>', .greater, .greaterEqual)]

/-- The kind of a reserved word. -/
def keyword? (t : Text) : Option Kind := keywords.lookup t

/-- The kind of a character that is a token on its own. -/
def mark? (c : Char) : Option Kind := marks.lookup c

/-- The kinds of an operator alone and with an equals sign. -/
def operator? (c : Char) : Option (Kind × Kind) := operators.lookup c

/-- The kind of a word: its own if it is reserved, else `identifier`. -/
def wordKind (t : Text) : Kind := (keyword? t).getD .identifier

/-! ## Tables for callers -/

/-- A table that callers may look up. -/
inductive Table
  | keywords
  | marks

/-- The refusal to change a table. -/
structure ReadOnly where
  key : Text

/-- The message of that refusal. -/
def ReadOnly.message (_ : ReadOnly) : Text :=
  "'mappingproxy' object does not support item assignment".toList

namespace Table

/-- The entries of a table, in the order of their spellings. -/
def entries : Table → List (Text × Kind)
  | keywords => BudgetLexer.keywords
  | marks => BudgetLexer.marks.map fun (c, k) => ([c], k)

/-- The kind under a spelling. -/
def get? (t : Table) (key : Text) : Option Kind := t.entries.lookup key

/-- A table is read-only: every assignment is refused. -/
def assign (_ : Table) (key : Text) : Except ReadOnly Table := .error ⟨key⟩

theorem get?_keywords (t : Text) : keywords.get? t = keyword? t := rfl

end Table

end BudgetLexer
