import BudgetLexer.Numeral.Plain
import BudgetLexer.Proofs.Binary64.Rounding
import BudgetLexer.Proofs.Grammar

/-!
# The numbers that numerals write

A plain numeral writes an exact number, and is read as the value that this one is rounded to.

* `Numeral.value`: the exact number; `Numeral.value_plain_eq` writes it as one decimal.
* `Numeral.value_plain_zeros`: zeros around the digits change nothing.
* **`Numeral.exists_roundsTo`**: the number that a plain numeral is read as.
-/

namespace BudgetLexer

variable {ds fs : Text}

/-! ## Rows of zeros -/

theorem isDigit_of_mem_zeros {n : ℕ} : ∀ c ∈ zeros n, isDigit c = true := by
  intro c hc
  rw [List.eq_of_mem_replicate hc]
  decide

theorem length_zeros (n : ℕ) : (zeros n).length = n := List.length_replicate

theorem digits_zeros (n : ℕ) : Digits (zeros (n + 1)) :=
  ⟨by simp [zeros], isDigit_of_mem_zeros⟩

theorem Digits.zeros_append (hd : Digits ds) (n : ℕ) : Digits (zeros n ++ ds) := by
  refine ⟨fun h => hd.1 (List.append_eq_nil_iff.1 h).2, fun c hc => ?_⟩
  exact (List.mem_append.1 hc).elim (isDigit_of_mem_zeros c) (hd.2 c)

theorem Digits.append_zeros (hd : Digits ds) (n : ℕ) : Digits (ds ++ zeros n) := by
  refine ⟨fun h => hd.1 (List.append_eq_nil_iff.1 h).1, fun c hc => ?_⟩
  exact (List.mem_append.1 hc).elim (hd.2 c) (isDigit_of_mem_zeros c)

/-! ## What a plain numeral writes -/

namespace Numeral

/-- The digits after the point. -/
def fraction (t : Text) : Text := (t.dropWhile isDigit).drop 1

/-- **The exact number that a plain numeral writes**: its digits before the point, and those after it
divided by a power of ten. -/
def value (t : Text) : ℚ :=
  natOf (t.takeWhile isDigit) + natOf (fraction t) / 10 ^ (fraction t).length

theorem parts_plain (hd : ∀ c ∈ ds, isDigit c = true) :
    (plain ds fs).takeWhile isDigit = ds ∧ fraction (plain ds fs) = fs := by
  unfold fraction plain
  rw [List.takeWhile_append_of_pos hd, List.dropWhile_append_of_pos hd]
  split
  · next h => exact ⟨List.append_nil ds, h.symm⟩
  · exact ⟨List.append_nil ds, rfl⟩

theorem value_plain (hd : ∀ c ∈ ds, isDigit c = true) :
    value (plain ds fs) = natOf ds + natOf fs / 10 ^ fs.length := by
  rw [value, (parts_plain hd).1, (parts_plain hd).2]

theorem natOf_append (ds fs : Text) : natOf (ds ++ fs) = natOf ds * tenPow fs.length + natOf fs := by
  rw [natOf, Nat.ofDigitChars_append, Nat.ofDigitChars_eq_ofDigitChars_zero, Nat.mul_comm]
  rfl

theorem value_plain_eq (hd : ∀ c ∈ ds, isDigit c = true) :
    value (plain ds fs) = Decimal.value ⟨natOf (ds ++ fs), -fs.length⟩ := by
  have hne : (10 : ℚ) ^ fs.length ≠ 0 := pow_ne_zero _ (by decide)
  rw [value_plain hd, Decimal.value, natOf_append, Nat.cast_add, Nat.cast_mul, cast_tenPow, zpow_neg,
    zpow_natCast, add_mul, mul_assoc, mul_inv_cancel₀ hne, mul_one, div_eq_mul_inv]

/-- **Zeros around the digits change nothing.** -/
theorem value_plain_zeros (hd : Digits ds) (i j : ℕ) :
    value (plain (zeros i ++ ds) (fs ++ zeros j)) = value (plain ds fs) := by
  have hne : (10 : ℚ) ^ j ≠ 0 := pow_ne_zero _ (by decide)
  rw [value_plain (hd.zeros_append i).2, value_plain hd.2, natOf_zeros_append, natOf_append_zeros,
    List.length_append, length_zeros, pow_add, Nat.cast_mul, cast_tenPow, mul_comm,
    mul_div_mul_right _ _ hne]

theorem value_nonneg (t : Text) : 0 ≤ value t :=
  add_nonneg (Nat.cast_nonneg _) (div_nonneg (Nat.cast_nonneg _) (pow_nonneg (by decide) _))

/-- **A plain numeral is read, as what its number is rounded to.** -/
theorem exists_roundsTo (hd : Digits ds) (hf : ∀ c ∈ fs, isDigit c = true) :
    ∃ y, read? (plain ds fs) = some y ∧ RoundsTo (value (plain ds fs)) y := by
  refine ⟨_, read?_plain hd.1 hd.2 hf, ?_⟩
  rw [value_plain_eq hd.2]
  exact Decimal.roundsTo_toBinary64 _

end Numeral

end BudgetLexer
