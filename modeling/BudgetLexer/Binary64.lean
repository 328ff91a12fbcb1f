import BudgetLexer.Text.Digits

/-!
# Binary64

Floating-point values of 64 bits, kept as exact numbers. Every finite one is a whole number of units
of `2 ^ -1074`, so comparing magnitudes is comparing natural numbers.

* `Magnitude`: a finite value without its sign, `significand * 2 ^ exponent` units.
* `Binary64`: a signed magnitude, an infinity, or the value that is no number.
* `Magnitude.units_injective`: a magnitude is determined by its value.
-/

namespace BudgetLexer

/-- The number of units that make one. -/
def unitsPerOne : Nat := twoPow 1074

/-- **A finite magnitude**: `significand * 2 ^ exponent` units of `2 ^ -1074`. The significand has 53
bits unless the exponent is least. -/
structure Magnitude where
  significand : Nat
  exponent : Nat
  significand_lt : significand < twoPow 53
  exponent_le : exponent ≤ 2045
  full : exponent = 0 ∨ twoPow 52 ≤ significand
  deriving DecidableEq

namespace Magnitude

/-- The value of a magnitude in units of `2 ^ -1074`. -/
def units (x : Magnitude) : Nat := x.significand * twoPow x.exponent

/-- The magnitude of the given parts, if they make one. -/
def ofParts? (significand exponent : Nat) : Option Magnitude :=
  if h : significand < twoPow 53 ∧ exponent ≤ 2045 ∧ (exponent = 0 ∨ twoPow 52 ≤ significand) then
    some ⟨significand, exponent, h.1, h.2.1, h.2.2⟩
  else none

theorem units_lt_of_exponent_lt {x y : Magnitude} (h : x.exponent < y.exponent) :
    x.units < y.units := by
  have hy : twoPow 52 ≤ y.significand := y.full.resolve_left (by omega)
  calc x.units < twoPow 53 * twoPow x.exponent :=
        Nat.mul_lt_mul_of_pos_right x.significand_lt (twoPow_pos _)
    _ = twoPow 52 * twoPow (x.exponent + 1) := by
        rw [← twoPow_add, ← twoPow_add]
        congr 1
        omega
    _ ≤ twoPow 52 * twoPow y.exponent := Nat.mul_le_mul_left _ (twoPow_le_twoPow h)
    _ ≤ y.units := Nat.mul_le_mul_right _ hy

/-- **A magnitude is determined by its value.** -/
theorem units_injective {x y : Magnitude} (h : x.units = y.units) : x = y := by
  have he : x.exponent = y.exponent := by
    rcases Nat.lt_trichotomy x.exponent y.exponent with hlt | heq | hlt
    · exact absurd h (Nat.ne_of_lt (units_lt_of_exponent_lt hlt))
    · exact heq
    · exact absurd h.symm (Nat.ne_of_lt (units_lt_of_exponent_lt hlt))
  have hs : x.significand = y.significand := by
    simp only [units, he] at h
    exact Nat.eq_of_mul_eq_mul_right (twoPow_pos _) h
  cases x; cases y; simp_all

end Magnitude

/-- **A floating-point value of 64 bits.** -/
inductive Binary64
  | finite (negative : Bool) (magnitude : Magnitude)
  | infinite (negative : Bool)
  | notANumber
  deriving DecidableEq

namespace Binary64

/-- The same value with the opposite sign. -/
def neg : Binary64 → Binary64
  | finite s x => finite (!s) x
  | infinite s => infinite (!s)
  | notANumber => notANumber

end Binary64

end BudgetLexer
