import BudgetLexer.Binary64
import Mathlib.Algebra.Order.Field.Rat
import Mathlib.Tactic.Linarith
import Mathlib.Tactic.Positivity
import Mathlib.Tactic.Ring

/-!
# The nearest value

Every finite value is an exact number, so rounding can be told by distances: a number is rounded to the
magnitude nearest to it, and of two equally near ones to the one with the even significand. Numbers from
half a step above the greatest magnitude on are rounded to the infinity.

* `Magnitude.value`: the exact number that a magnitude is.
* `Magnitude.Nearest x v`: the magnitude `x` is nearest to the number `v`; `Nearest.unique` says that no
  other one is, and `Nearest.mono` that a greater number has no smaller one.
* `RoundsTo v y`: the value `y` is what the number `v` is rounded to; `RoundsTo.eq_zero_iff` and
  `RoundsTo.eq_infinite_iff` tell where zero ends and where the infinity begins.
* `Binary64.Le`: the order of values; **`RoundsTo.mono`**: rounding keeps it.
-/

namespace BudgetLexer

/-! ## Distances -/

variable {a b : ℚ}

theorem abs_sub_le_iff_of_lt {v : ℚ} (h : a < b) : |a - v| ≤ |b - v| ↔ 2 * v ≤ a + b := by
  rw [← sq_le_sq, ← sub_nonneg]
  have hfactor : (b - v) ^ 2 - (a - v) ^ 2 = (b - a) * (a + b - 2 * v) := by ring
  rw [hfactor, mul_nonneg_iff_of_pos_left (sub_pos.2 h), sub_nonneg]

theorem abs_sub_le_iff_of_gt {v : ℚ} (h : a < b) : |b - v| ≤ |a - v| ↔ a + b ≤ 2 * v := by
  rw [← sq_le_sq, ← sub_nonneg]
  have hfactor : (a - v) ^ 2 - (b - v) ^ 2 = (b - a) * (2 * v - (a + b)) := by ring
  rw [hfactor, mul_nonneg_iff_of_pos_left (sub_pos.2 h), sub_nonneg]

theorem cast_twoPow (n : ℕ) : (twoPow n : ℚ) = 2 ^ n := Nat.cast_pow 2 n

theorem unitsPerOne_pos : (0 : ℚ) < unitsPerOne := Nat.cast_pos.2 (twoPow_pos 1074)

namespace Magnitude

/-- **The exact number that a magnitude is.** -/
def value (x : Magnitude) : ℚ := x.units / unitsPerOne

/-- A magnitude with its sign. -/
def signed (negative : Bool) (x : Magnitude) : ℚ := if negative then -x.value else x.value

/-- **The magnitude is nearest to `v`**: no other one is nearer, and if another one is as near, then
the significand is even. -/
structure Nearest (x : Magnitude) (v : ℚ) : Prop where
  le : ∀ y : Magnitude, |x.value - v| ≤ |y.value - v|
  even : ∀ y : Magnitude, y ≠ x → |y.value - v| = |x.value - v| → x.significand % 2 = 0

variable {x y : Magnitude} {v w : ℚ}

/-! ## Values -/

theorem value_nonneg (x : Magnitude) : 0 ≤ x.value :=
  div_nonneg (Nat.cast_nonneg _) unitsPerOne_pos.le

theorem value_lt_value_iff : x.value < y.value ↔ x.units < y.units := by
  rw [value, value, div_lt_div_iff_of_pos_right unitsPerOne_pos, Nat.cast_lt]

theorem eq_of_value_eq (h : x.value = y.value) : x = y := by
  refine units_injective ?_
  have := (div_left_inj' unitsPerOne_pos.ne').1 h
  exact_mod_cast this

theorem value_eq_zero_iff : x.value = 0 ↔ x.significand = 0 := by
  rw [value, div_eq_zero_iff, or_iff_left unitsPerOne_pos.ne', Nat.cast_eq_zero, units,
    Nat.mul_eq_zero, or_iff_left (twoPow_pos _).ne']

theorem exists_between (h : x.units < y.units) (hx : x.significand % 2 = 0)
    (hy : y.significand % 2 = 0) : ∃ z : Magnitude, x.units < z.units ∧ z.units < y.units := by
  have heven : twoPow 53 % 2 = 0 := by decide
  have hlt := x.significand_lt
  have hsucc : x.significand + 1 < twoPow 53 := by omega
  let z : Magnitude := ⟨x.significand + 1, x.exponent, hsucc, x.exponent_le, by
    have := x.full
    omega⟩
  refine ⟨z, Nat.mul_lt_mul_of_pos_right (Nat.lt_succ_self _) (twoPow_pos _), ?_⟩
  rcases Nat.lt_trichotomy x.exponent y.exponent with he | he | he
  · exact units_lt_of_exponent_lt (x := z) he
  · -- on one grid, two even multiples have an odd one between them
    have hxy : x.significand < y.significand := by
      rw [units, units, he] at h
      exact Nat.lt_of_mul_lt_mul_right h
    have hz : x.significand + 1 < y.significand := by omega
    rw [units, units, ← he]
    exact Nat.mul_lt_mul_of_pos_right hz (twoPow_pos _)
  · exact absurd h (Nat.not_lt.2 (units_lt_of_exponent_lt he).le)

/-! ## The nearest magnitude -/

/-- Two magnitudes as near as each other are not both even, or one between them would be nearer. -/
theorem not_lt_of_nearest (h : x.Nearest v) (h' : y.Nearest v) : ¬ x.value < y.value := by
  intro hlt
  have hdist : |x.value - v| = |y.value - v| := le_antisymm (h.le y) (h'.le x)
  have hne : y ≠ x := by
    rintro rfl
    exact lt_irrefl _ hlt
  have hx := h.even y hne hdist.symm
  have hy := h'.even x hne.symm hdist
  obtain ⟨z, hxz, hzy⟩ := exists_between (value_lt_value_iff.1 hlt) hx hy
  rw [← value_lt_value_iff] at hxz hzy
  have hmid := (abs_sub_le_iff_of_gt hlt).1 hdist.symm.le
  have hz := (abs_sub_le_iff_of_lt hxz).1 (h.le z)
  linarith

/-- **No other magnitude is nearest.** -/
theorem Nearest.unique (h : x.Nearest v) (h' : y.Nearest v) : x = y :=
  eq_of_value_eq (le_antisymm (not_lt.1 (not_lt_of_nearest h' h)) (not_lt.1 (not_lt_of_nearest h h')))

/-- **A greater number has no smaller nearest magnitude.** -/
theorem Nearest.mono (h : x.Nearest v) (h' : y.Nearest w) (hvw : v ≤ w) : x.value ≤ y.value := by
  by_contra hlt
  rw [not_le] at hlt
  have hv := (abs_sub_le_iff_of_gt hlt).1 (h.le y)
  have hw := (abs_sub_le_iff_of_lt hlt).1 (h'.le x)
  -- both are the middle of the two magnitudes, so one of these is not the nearest
  have heq : v = w := by linarith
  subst heq
  rw [h.unique h'] at hlt
  exact lt_irrefl _ hlt

/-- A nearest magnitude is nearest of all values, those below zero being farther off. -/
theorem Nearest.le_signed (h : x.Nearest v) (hv : 0 ≤ v) (s : Bool) (y : Magnitude) :
    |x.value - v| ≤ |y.signed s - v| := by
  cases s with
  | false => exact h.le y
  | true =>
    have hy := y.value_nonneg
    refine (h.le y).trans ?_
    change |y.value - v| ≤ |-y.value - v|
    rw [abs_of_nonpos (show -y.value - v ≤ 0 by linarith), abs_le]
    constructor <;> linarith

theorem nearest_self (x : Magnitude) : x.Nearest x.value where
  le y := by
    rw [sub_self, abs_zero]
    exact abs_nonneg _
  even y hne h := by
    rw [sub_self, abs_zero, abs_eq_zero, sub_eq_zero] at h
    exact absurd (eq_of_value_eq h) hne

/-! ## Zero -/

/-- The magnitude that is zero. -/
def zero : Magnitude := ⟨0, 0, twoPow_pos 53, Nat.zero_le _, Or.inl rfl⟩

/-- The least magnitude above zero. -/
def least : Magnitude := ⟨1, 0, by decide, Nat.zero_le _, Or.inl rfl⟩

theorem value_zero : zero.value = 0 := value_eq_zero_iff.2 rfl

theorem least_value : least.value = 2 ^ (-1074 : ℤ) := by
  have hunits : least.units = 1 := rfl
  rw [value, hunits, unitsPerOne, cast_twoPow, zpow_neg, Nat.cast_one, one_div]
  norm_cast

theorem least_le (h : x ≠ zero) : least.value ≤ x.value := by
  rw [← not_lt, value_lt_value_iff]
  intro hlt
  have hunits : least.units = 1 := rfl
  have hzero : zero.units = 0 := rfl
  refine h (units_injective ?_)
  omega

theorem nearest_zero_iff : zero.Nearest v ↔ v ≤ 2 ^ (-1075 : ℤ) := by
  have hhalf : (2 : ℚ) * 2 ^ (-1075 : ℤ) = least.value := by
    rw [least_value, ← zpow_one_add₀ two_ne_zero]
    rfl
  have hpos : zero.value < least.value := value_lt_value_iff.2 (by decide)
  rw [← mul_le_mul_iff_right₀ two_pos, hhalf]
  constructor
  · intro h
    have := (abs_sub_le_iff_of_lt hpos).1 (h.le least)
    rwa [value_zero, zero_add] at this
  · intro h
    refine ⟨fun y => ?_, fun _ _ _ => rfl⟩
    by_cases hy : y = zero
    · rw [hy]
    · have hle := least_le hy
      rw [abs_sub_le_iff_of_lt (hpos.trans_le hle), value_zero, zero_add]
      exact h.trans hle

end Magnitude

/-! ## Rounding -/

/-- **The least number that is rounded to the infinity**: it is half a step above the greatest
magnitude. -/
def overflowBound : ℚ := 2 ^ 1024 - 2 ^ 970

theorem one_lt_overflowBound : 1 < overflowBound := by
  have hone : (1 : ℚ) ≤ 2 ^ 970 := one_le_pow₀ one_le_two
  have hfour : (4 : ℚ) ≤ 2 ^ 54 := by norm_num
  have hmul := mul_le_mul_of_nonneg_left hfour (zero_le_one.trans hone)
  rw [overflowBound, show 1024 = 970 + 54 from rfl, pow_add]
  generalize (2 : ℚ) ^ 970 = b at *
  linarith

/-- **The value that a number is rounded to.** -/
inductive RoundsTo (v : ℚ) : Binary64 → Prop
  | finite {x : Magnitude} (hv : v < overflowBound) (h : x.Nearest v) : RoundsTo v (.finite false x)
  | infinite (hv : overflowBound ≤ v) : RoundsTo v (.infinite false)

/-- **The order of values.** The value that is no number has no place in it. -/
inductive Binary64.Le : Binary64 → Binary64 → Prop
  | finite {s s' : Bool} {x x' : Magnitude} (h : x.signed s ≤ x'.signed s') :
      Le (.finite s x) (.finite s' x')
  | infinite {y : Binary64} (h : y ≠ .notANumber) : Le y (.infinite false)
  | negative {y : Binary64} (h : y ≠ .notANumber) : Le (.infinite true) y

variable {v w u : ℚ} {y z : Binary64} {x : Magnitude}

theorem RoundsTo.le_signed (h : RoundsTo v (.finite false x)) (hv : 0 ≤ v) (s : Bool)
    (y : Magnitude) : |x.value - v| ≤ |y.signed s - v| := by
  cases h with
  | finite _ h => exact h.le_signed hv s y

theorem RoundsTo.unique (h : RoundsTo v y) (h' : RoundsTo v z) : y = z := by
  cases h with
  | finite hv h =>
    cases h' with
    | finite _ h' => rw [h.unique h']
    | infinite hv' => exact absurd hv' (not_le.2 hv)
  | infinite hv =>
    cases h' with
    | finite hv' => exact absurd hv (not_le.2 hv')
    | infinite => rfl

theorem RoundsTo.cases_eq (h : RoundsTo v y) : (∃ x, y = .finite false x) ∨ y = .infinite false := by
  cases h with
  | finite => exact Or.inl ⟨_, rfl⟩
  | infinite => exact Or.inr rfl

theorem RoundsTo.eq_zero_iff (h : RoundsTo v y) :
    y = .finite false .zero ↔ v ≤ 2 ^ (-1075 : ℤ) := by
  rw [← Magnitude.nearest_zero_iff]
  constructor
  · rintro rfl
    cases h with
    | finite _ h => exact h
  · intro hv
    have hle : v ≤ 1 := (Magnitude.nearest_zero_iff.1 hv).trans
      (zpow_le_one_of_nonpos₀ one_le_two (by decide))
    exact h.unique (.finite (hle.trans_lt one_lt_overflowBound) hv)

theorem RoundsTo.eq_infinite_iff (h : RoundsTo v y) : y = .infinite false ↔ overflowBound ≤ v := by
  constructor
  · rintro rfl
    cases h with
    | infinite hv => exact hv
  · exact fun hv => h.unique (.infinite hv)

/-- **Rounding keeps the order.** -/
theorem RoundsTo.mono (h : RoundsTo v y) (h' : RoundsTo w z) (hvw : v ≤ w) : y.Le z := by
  cases h with
  | finite hv h =>
    cases h' with
    | finite _ h' => exact .finite (h.mono h' hvw)
    | infinite => exact .infinite (by simp)
  | infinite hv =>
    cases h' with
    | finite hv' => exact absurd (hv.trans hvw) (not_le.2 hv')
    | infinite => exact .infinite (by simp)

theorem RoundsTo.of_between (h : RoundsTo v (.finite false x)) (h' : RoundsTo w (.finite false x))
    (hu : RoundsTo u y) (hvu : v ≤ u) (huw : u ≤ w) : y = .finite false x := by
  cases h with
  | finite _ hv =>
    cases h' with
    | finite hb hw =>
      cases hu with
      | finite _ hu =>
        have hle := hv.mono hu hvu
        have hge := hu.mono hw huw
        rw [Magnitude.eq_of_value_eq (le_antisymm hge hle)]
      | infinite hu => exact absurd (hu.trans huw) (not_le.2 hb)

end BudgetLexer
