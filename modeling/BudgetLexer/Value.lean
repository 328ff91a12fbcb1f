import BudgetLexer.Binary64.Layout
import BudgetLexer.Text.Quoted

/-!
# Values

What a token carries as its literal, and what a diagnostic may carry as its line.

* `Value`: nothing, a truth value, an integer, a floating-point value or a text.
* `Value.toText`: how a value is written.
* `Value.same`: equality of values. Truth values, integers and floating-point values are compared as
  exact numbers, and the value that is no number differs from itself.
-/

namespace BudgetLexer

/-- **A value.** -/
inductive Value
  | none
  | bool (b : Bool)
  | int (n : Int)
  | float (x : Binary64)
  | text (t : Text)
  deriving DecidableEq

namespace Value

/-- The text of a value. -/
def toText : Value → Text
  | none => "None".toList
  | bool true => "True".toList
  | bool false => "False".toList
  | int n => integerText n
  | float x => x.text
  | text t => t

/-- What equality looks at: nothing, an exact number in units of `2 ^ -1074`, an infinity, or a
text. -/
inductive Key
  | nothing
  | number (units : Int)
  | infinite (negative : Bool)
  | text (t : Text)
  deriving DecidableEq

/-- What equality looks at in a value. The value that is no number has nothing to compare. -/
def key? : Value → Option Key
  | none => some .nothing
  | bool b => some (.number (if b then unitsPerOne else 0))
  | int n => some (.number (n * unitsPerOne))
  | float (.finite false x) => some (.number x.units)
  | float (.finite true x) => some (.number (-x.units))
  | float (.infinite s) => some (.infinite s)
  | float .notANumber => Option.none
  | text t => some (.text t)

/-- **Equality of values.** -/
def same (v w : Value) : Bool := v.key?.any fun k => w.key? == some k

/-- Equal values have the same thing to compare. -/
theorem same_eq_true_iff {v w : Value} :
    v.same w = true ↔ ∃ k, v.key? = some k ∧ w.key? = some k := by
  simp [same, Option.any_eq_true]

end Value

end BudgetLexer
