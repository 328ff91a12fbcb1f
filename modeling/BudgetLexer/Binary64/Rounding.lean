import BudgetLexer.Binary64

/-!
# Rounding to Binary64

An exact ratio of natural numbers is rounded to the nearest floating-point value; of two equally near
ones the even significand wins. Values below the least step round to it or to zero, and values too
large for a finite magnitude are infinite.

* `divEven`: a quotient rounded to the nearest natural number, ties to even.
* `Magnitude.ofRatio?`: the nearest magnitude to a ratio, none if it is too large.
* `Decimal`: a number `coefficient * 10 ^ exponent`, and the value nearest to it.
-/

namespace BudgetLexer

/-- **The natural number nearest to `n / d`**, the even one of two equally near. -/
def divEven (n d : Nat) : Nat :=
  let q := n / d
  let r := n % d
  if 2 * r < d then q else if d < 2 * r then q + 1 else q + q % 2

/-- The exponent of the magnitudes near `n / d` units: the number of bits of the whole part past the
53 that a significand holds. -/
def gridExponent (n d : Nat) : Nat := (n / d).log2 - 52

/-- **The magnitude nearest to `n / d`**, the even one of two equally near; none if it is too large.
A significand that rounds up to 54 bits is halved, which moves it to the next exponent. -/
def Magnitude.ofRatio? (n d : Nat) : Option Magnitude :=
  let n := n * unitsPerOne
  let e := gridExponent n d
  let m := divEven n (d * twoPow e)
  if m = twoPow 53 then ofParts? (twoPow 52) (e + 1) else ofParts? m e

/-- A number written in tens: `coefficient * 10 ^ exponent`. -/
structure Decimal where
  coefficient : Nat
  exponent : Int
  deriving DecidableEq

namespace Decimal

/-- A decimal as a ratio of natural numbers. -/
def ratio (x : Decimal) : Nat × Nat :=
  match x.exponent with
  | .ofNat e => (x.coefficient * tenPow e, 1)
  | .negSucc e => (x.coefficient, tenPow (e + 1))

/-- The magnitude nearest to a decimal; none if it is too large. -/
def magnitude? (x : Decimal) : Option Magnitude := Magnitude.ofRatio? x.ratio.1 x.ratio.2

/-- **The floating-point value nearest to a decimal.** -/
def toBinary64 (x : Decimal) : Binary64 :=
  match x.magnitude? with
  | some m => .finite false m
  | none => .infinite false

end Decimal

/-! ## Quotients to the nearest -/

theorem divEven_le (n d : Nat) : divEven n d ≤ n / d + 1 := by
  unfold divEven
  grind

theorem le_divEven (n d : Nat) : n / d ≤ divEven n d := by
  unfold divEven
  grind

/-- A multiple of the divisor is not rounded. -/
theorem divEven_mul_left {d : Nat} (hd : 0 < d) (q : Nat) : divEven (d * q) d = q := by
  simp [divEven, Nat.mul_div_cancel_left q hd, hd]

end BudgetLexer
