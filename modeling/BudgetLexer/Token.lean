import BudgetLexer.Kind
import BudgetLexer.Value

/-!
# Tokens and diagnostics

A token is a piece of the source with its kind; a diagnostic is a complaint about a line of it. Both
are records: they are compared field by field and never change.

* `Token`, `Diagnostic`, and their texts.
* `Record`: a token or a diagnostic, with `Record.same` for equality and `Record.change`, which
  refuses every change.
-/

namespace BudgetLexer

/-- **A token.** The scanner counts lines by natural numbers; nothing else asks what a line is. -/
structure Token (Line : Type) where
  kind : Kind
  lexeme : Text
  literal : Value
  line : Line
  deriving DecidableEq

namespace Token

variable {Line : Type}

/-- The text of a token: kind, lexeme and literal, divided by single spaces. -/
def text (t : Token Line) : Text :=
  t.kind.name.toList ++ ' ' :: (t.lexeme ++ ' ' :: t.literal.toText)

/-- The same token on another line. -/
def mapLine {Line' : Type} (f : Line → Line') (t : Token Line) : Token Line' :=
  { t with line := f t.line }

@[simp] theorem text_mapLine {Line' : Type} (f : Line → Line') (t : Token Line) :
    (t.mapLine f).text = t.text := rfl

end Token

/-- **A diagnostic.** -/
structure Diagnostic where
  line : Value
  message : Text
  deriving DecidableEq

namespace Diagnostic

/-- The diagnostic for a line of the source. -/
def onLine (line : Nat) (message : Text) : Diagnostic := ⟨.int line, message⟩

/-- The text of a diagnostic. -/
def text (d : Diagnostic) : Text :=
  "Error [Line ".toList ++ d.line.toText ++ "]: ".toList ++ d.message

end Diagnostic

/-! ## Records -/

/-- A token or a diagnostic. -/
inductive Record
  | token (t : Token Value)
  | diagnostic (d : Diagnostic)

/-- An attempt to change a field of a record. -/
inductive Change
  | assign (field : Text) (value : Value)
  | delete (field : Text)

/-- The refusal of a change. -/
structure Refusal where
  change : Change

/-- The message of a refusal. -/
def Refusal.message (r : Refusal) : Text :=
  match r.change with
  | .assign field _ => "cannot assign to field ".toList ++ quoted field
  | .delete field => "cannot delete field ".toList ++ quoted field

namespace Record

/-- The text of a record. -/
def text : Record → Text
  | token t => t.text
  | diagnostic d => d.text

/-- **Equality of records**: the same sort of record, with the same fields. -/
def same : Record → Record → Bool
  | token t, token u =>
    t.kind == u.kind && t.lexeme == u.lexeme && t.literal.same u.literal && t.line.same u.line
  | diagnostic d, diagnostic e => d.line.same e.line && d.message == e.message
  | _, _ => false

/-- A record is frozen: every change is refused, whatever the field and whether it exists. -/
def change (_ : Record) (c : Change) : Except Refusal Record := .error ⟨c⟩

end Record

end BudgetLexer
