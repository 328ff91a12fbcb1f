import BudgetLexer.Text.Digits
import BudgetLexer.Text.Quoted

/-!
# Kinds of tokens

The kinds are a closed, numbered list. A kind is looked up by its name or by its number.

* `Kind.name`, `Kind.ordinal`: the name of a kind, and its number, from 1.
* `Kind.ofName`, `Kind.ofOrdinal`: the two look-ups, which undo them (`ofName_name`,
  `ofOrdinal_ordinal`), and `Kind.Missing`, the cause of a look-up that fails.
-/

namespace BudgetLexer

/-- **The kind of a token.** -/
inductive Kind
  | leftParen | rightParen | leftBrace | rightBrace | comma | dot | minus | plus | semicolon
  | slash | star
  | bang | bangEqual | equal | equalEqual | greater | greaterEqual | less | lessEqual
  | identifier | string | number
  | wordAnd | wordClass | wordElse | wordFalse | wordFun | wordFor | wordIf | wordNil | wordOr
  | wordPrint | wordReturn | wordSuper | wordThis | wordVar | wordWhile
  | eof
  deriving DecidableEq, Repr

namespace Kind

/-- The name of a kind. -/
def name : Kind → String
  | leftParen => "LEFT_PAREN"
  | rightParen => "RIGHT_PAREN"
  | leftBrace => "LEFT_BRACE"
  | rightBrace => "RIGHT_BRACE"
  | comma => "COMMA"
  | dot => "DOT"
  | minus => "MINUS"
  | plus => "PLUS"
  | semicolon => "SEMICOLON"
  | slash => "SLASH"
  | star => "STAR"
  | bang => "BANG"
  | bangEqual => "BANG_EQUAL"
  | equal => "EQUAL"
  | equalEqual => "EQUAL_EQUAL"
  | greater => "GREATER"
  | greaterEqual => "GREATER_EQUAL"
  | less => "LESS"
  | lessEqual => "LESS_EQUAL"
  | identifier => "IDENTIFIER"
  | string => "STRING"
  | number => "NUMBER"
  | wordAnd => "AND"
  | wordClass => "CLASS"
  | wordElse => "ELSE"
  | wordFalse => "FALSE"
  | wordFun => "FUN"
  | wordFor => "FOR"
  | wordIf => "IF"
  | wordNil => "NIL"
  | wordOr => "OR"
  | wordPrint => "PRINT"
  | wordReturn => "RETURN"
  | wordSuper => "SUPER"
  | wordThis => "THIS"
  | wordVar => "VAR"
  | wordWhile => "WHILE"
  | eof => "EOF"

/-- All kinds, in the order of their numbers. -/
def all : List Kind :=
  [leftParen, rightParen, leftBrace, rightBrace, comma, dot, minus, plus, semicolon, slash, star,
    bang, bangEqual, equal, equalEqual, greater, greaterEqual, less, lessEqual,
    identifier, string, number,
    wordAnd, wordClass, wordElse, wordFalse, wordFun, wordFor, wordIf, wordNil, wordOr, wordPrint,
    wordReturn, wordSuper, wordThis, wordVar, wordWhile,
    eof]

/-- The place of a kind in `all`, counted from 1. -/
def ordinal (k : Kind) : Nat := all.idxOf k + 1

/-- Why a look-up finds no kind. -/
inductive Missing
  | name (t : Text)
  | ordinal (n : Int)
  deriving DecidableEq

/-- The message about a look-up that finds no kind. -/
def Missing.message : Missing → Text
  | name t => quoted t
  | ordinal n => integerText n ++ " is not a valid TokenType".toList

/-- The kind of a given name. -/
def ofName (t : Text) : Except Missing Kind :=
  match all.find? fun k => k.name.toList == t with
  | some k => .ok k
  | none => .error (.name t)

/-- The kind of a given number. -/
def ofOrdinal (n : Int) : Except Missing Kind :=
  match all.find? fun k => (k.ordinal : Int) == n with
  | some k => .ok k
  | none => .error (.ordinal n)

/-! ## Look-ups -/

theorem mem_all (k : Kind) : k ∈ all := by cases k <;> decide

theorem find?_name (k : Kind) : (all.find? fun l => l.name.toList == k.name.toList) = some k := by
  cases k <;> decide

theorem find?_ordinal (k : Kind) :
    (all.find? fun l => (l.ordinal : Int) == (k.ordinal : Int)) = some k := by
  cases k <;> decide

theorem ofName_name (k : Kind) : ofName k.name.toList = .ok k := by
  rw [ofName, find?_name]

theorem ofOrdinal_ordinal (k : Kind) : ofOrdinal k.ordinal = .ok k := by
  rw [ofOrdinal, find?_ordinal]

/-- No two kinds share a name. -/
theorem name_injective {k l : Kind} (h : k.name = l.name) : k = l := by
  have e := ofName_name k
  rw [h, ofName_name l] at e
  exact (Except.ok.inj e).symm

end Kind

end BudgetLexer
