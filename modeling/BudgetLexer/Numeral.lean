import BudgetLexer.Binary64.Rounding

/-!
# Numerals

The texts that denote a floating-point value: an optional sign, then digits with an optional point
and an optional power of ten, or the name of an infinity or of no number. Blanks around a numeral are
dropped, and single underscores may stand between digits. A numeral denotes the value nearest to the
number it writes.

* `Numeral.decimal?`: the number written by digits, point and exponent.
* `Numeral.read?`: the value of a text; none if the text is no numeral.
-/

namespace BudgetLexer

namespace Numeral

/-- The blanks that may stand around a numeral. -/
def isBlank (c : Char) : Bool :=
  let n := c.toNat
  (9 ≤ n && n ≤ 13) || n == 0x20 || n == 0x85 || n == 0xA0 || n == 0x1680 ||
    (0x2000 ≤ n && n ≤ 0x200A) || n == 0x2028 || n == 0x2029 || n == 0x202F || n == 0x205F ||
    n == 0x3000

/-- The text without the blanks at its ends. -/
def trim (t : Text) : Text := ((t.dropWhile isBlank).reverse.dropWhile isBlank).reverse

/-- Whether each underscore stands between two digits; `afterDigit` tells what came before. -/
def separated (afterDigit : Bool) : Text → Bool
  | [] => true
  | c :: t =>
    if c = '_' then afterDigit && (t.head?.any isDigit) && separated false t
    else separated (isDigit c) t

/-- The power of ten at the end of a numeral: nothing, or a letter, an optional sign and digits. -/
def exponent? : Text → Option Int
  | [] => some 0
  | c :: t =>
    let (negative, ds) := match t with
      | '-' :: ds => (true, ds)
      | '+' :: ds => (false, ds)
      | ds => (false, ds)
    if (c = 'e' ∨ c = 'E') ∧ ds ≠ [] ∧ ds.all isDigit then
      some (if negative then -(natOf ds : Int) else natOf ds)
    else none

/-- An exponent of a number written with `digits` digits, cut down to where the value no longer
changes: it is then above every finite value, or below half the least one. -/
def cutExponent (digits : Nat) (e : Int) : Int := max (-(400 + digits)) (min (400 + digits) e)

/-- The number written by digits with an optional point and an optional exponent. At least one digit
must stand before or after the point. -/
def decimal? (t : Text) : Option Decimal :=
  let whole := t.takeWhile isDigit
  let (fraction, rest) := match t.dropWhile isDigit with
    | '.' :: r => (r.takeWhile isDigit, r.dropWhile isDigit)
    | r => ([], r)
  let ds := whole ++ fraction
  if ds = [] then none
  else (exponent? rest).map fun e => ⟨natOf ds, cutExponent ds.length e - fraction.length⟩

/-- The value of a numeral without its sign. -/
def unsigned? (t : Text) : Option Binary64 :=
  let name := t.map Char.toLower
  if name = "inf".toList ∨ name = "infinity".toList then some (.infinite false)
  else if name = "nan".toList then some .notANumber
  else if separated false t then (decimal? (t.filter (· ≠ '_'))).map Decimal.toBinary64
  else none

/-- **The value that a text denotes**, if it is a numeral. -/
def read? (t : Text) : Option Binary64 :=
  match trim (t.map asciiDigit) with
  | '-' :: r => (unsigned? r).map Binary64.neg
  | '+' :: r => unsigned? r
  | r => unsigned? r

end Numeral

end BudgetLexer
