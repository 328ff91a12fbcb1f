import BudgetLexer.Binary64.Rounding
import BudgetLexer.Proofs.Binary64.Nearest
import Mathlib.Tactic.DefEqTransformations

/-!
# Rounding is correct

A ratio is rounded on a grid: the exponent is chosen by the size of the ratio, and the significand is the
nearest multiple of the step that belongs to this exponent. The grid is fine enough, since below it all
other magnitudes are farther off; and a significand that rounds up to 54 bits is the first one of the
next grid.

* `step e`: the distance of magnitudes with the exponent `e`.
* `NearestMultiple g v m`: of the multiples of `g`, the one by `m` is nearest to `v`.
* `nearestMultiple_divEven`, `ofRatio?_eq_none_iff_grid`: the significand, and when there is none.
* `nearest_of_nearestMultiple`: nearest on the grid is nearest of all.
* **`Decimal.roundsTo_toBinary64`**: the value of a decimal is what its number is rounded to.
-/

namespace BudgetLexer

/-- **The exact number that a decimal writes.** -/
def Decimal.value (x : Decimal) : ℚ := x.coefficient * 10 ^ x.exponent

/-- The distance of two neighbouring magnitudes with the exponent `e`. -/
def step (e : ℕ) : ℚ := twoPow e / unitsPerOne

/-- **Of the multiples of `g`, the one by `m` is nearest to `v`**, the even one of two. -/
structure NearestMultiple (g v : ℚ) (m : ℕ) : Prop where
  le : ∀ k : ℕ, |m * g - v| ≤ |k * g - v|
  even : ∀ k : ℕ, k ≠ m → |k * g - v| = |m * g - v| → m % 2 = 0

variable {x y : Magnitude} {g v : ℚ} {d e k m n : ℕ}

/-! ## Steps -/

theorem step_pos (e : ℕ) : 0 < step e := div_pos (Nat.cast_pos.2 (twoPow_pos e)) unitsPerOne_pos

theorem step_add (e k : ℕ) : step (e + k) = twoPow k * step e := by
  rw [step, step, twoPow_add, Nat.cast_mul, mul_comm (twoPow e : ℚ), mul_div_assoc]

theorem step_le_step (h : e ≤ k) : step e ≤ step k :=
  div_le_div_of_nonneg_right (Nat.cast_le.2 (twoPow_le_twoPow h)) unitsPerOne_pos.le

theorem Magnitude.value_eq (x : Magnitude) : x.value = x.significand * step x.exponent := by
  rw [value, units, Nat.cast_mul, mul_div_assoc, step]

theorem Magnitude.value_eq_of_le (h : e ≤ x.exponent) :
    x.value = (x.significand * twoPow (x.exponent - e) : ℕ) * step e := by
  rw [value_eq, Nat.cast_mul, mul_assoc, ← step_add, Nat.add_sub_cancel' h]

theorem Magnitude.value_lt_of_lt (h : x.exponent < e) : x.value < twoPow 52 * step e := by
  obtain ⟨k, rfl⟩ := Nat.exists_eq_add_of_le' (Nat.succ_le_of_lt h)
  have hsig : (x.significand : ℚ) < twoPow 53 := Nat.cast_lt.2 x.significand_lt
  have hstep : (twoPow 53 : ℚ) * step (k + x.exponent) = twoPow 52 * step (k + x.exponent + 1) := by
    rw [step_add _ 1, ← mul_assoc, ← Nat.cast_mul, ← twoPow_add]
  calc x.value = x.significand * step x.exponent := x.value_eq
    _ < twoPow 53 * step x.exponent := mul_lt_mul_of_pos_right hsig (step_pos _)
    _ ≤ twoPow 53 * step (k + x.exponent) :=
        mul_le_mul_of_nonneg_left (step_le_step (Nat.le_add_left _ _)) (Nat.cast_nonneg _)
    _ = twoPow 52 * step (k + x.exponent + 1) := hstep

/-! ## The significand -/

theorem div_eq_div_add_mod (n : ℕ) (hd : 0 < d) : (n : ℚ) / d = (n / d : ℕ) + (n % d : ℕ) / d := by
  have hd' : (d : ℚ) ≠ 0 := Nat.cast_ne_zero.2 hd.ne'
  rw [div_eq_iff hd', add_mul, div_mul_cancel₀ _ hd']
  exact_mod_cast (Nat.div_add_mod' n d).symm

theorem rest_bounds (n : ℕ) (hd : 0 < d) :
    (0 : ℚ) ≤ (n % d : ℕ) / d ∧ ((n % d : ℕ) : ℚ) / d < 1 :=
  ⟨div_nonneg (Nat.cast_nonneg _) (Nat.cast_nonneg _),
    (div_lt_one (Nat.cast_pos.2 hd)).2 (Nat.cast_lt.2 (Nat.mod_lt n hd))⟩

theorem div_bounds (n : ℕ) (hd : 0 < d) :
    ((n / d : ℕ) : ℚ) ≤ n / d ∧ (n : ℚ) / d < (n / d : ℕ) + 1 := by
  obtain ⟨hnonneg, hrest⟩ := rest_bounds n hd
  rw [div_eq_div_add_mod n hd]
  exact ⟨le_add_of_nonneg_right hnonneg, add_lt_add_right hrest _⟩

theorem abs_divEven_sub (n : ℕ) (hd : 0 < d) :
    |(divEven n d : ℚ) - n / d| < 1 / 2 ∨
      |(divEven n d : ℚ) - n / d| = 1 / 2 ∧ divEven n d % 2 = 0 := by
  have hd' : (0 : ℚ) < d := Nat.cast_pos.2 hd
  obtain ⟨hnonneg, hrest⟩ := rest_bounds n hd
  have hdouble : 2 * (((n % d : ℕ) : ℚ) / d) = (2 * (n % d) : ℕ) / d := by
    rw [Nat.cast_mul, mul_div_assoc, Nat.cast_ofNat]
  rw [div_eq_div_add_mod n hd]
  unfold divEven
  dsimp only
  generalize n / d = q
  split
  · next h =>
    have hlt : ((2 * (n % d) : ℕ) : ℚ) / d < 1 := (div_lt_one hd').2 (Nat.cast_lt.2 h)
    left
    rw [sub_add_cancel_left, abs_neg, abs_of_nonneg hnonneg]
    linarith
  split
  · next h =>
    have hlt : 1 < ((2 * (n % d) : ℕ) : ℚ) / d := (one_lt_div hd').2 (Nat.cast_lt.2 h)
    left
    rw [Nat.cast_add, add_sub_add_left_eq_sub, Nat.cast_one, abs_of_pos (sub_pos.2 hrest)]
    linarith
  · next h h' =>
    have heq : ((2 * (n % d) : ℕ) : ℚ) / d = 1 :=
      (div_eq_one_iff_eq hd'.ne').2 (Nat.cast_inj.2 (le_antisymm (not_lt.1 h') (not_lt.1 h)))
    have hhalf : ((n % d : ℕ) : ℚ) / d = 1 / 2 := by linarith
    right
    rw [hhalf]
    rcases Nat.mod_two_eq_zero_or_one q with hq | hq
    · rw [hq]
      refine ⟨?_, hq⟩
      norm_num
    · rw [hq]
      refine ⟨?_, by omega⟩
      norm_num

/-- **A multiple that is at most half a step off is the nearest**, if it is even where it is half off. -/
theorem nearestMultiple_of_abs_sub (hg : 0 < g)
    (h : |m - v / g| < 1 / 2 ∨ |m - v / g| = 1 / 2 ∧ m % 2 = 0) : NearestMultiple g v m := by
  have hscale : ∀ k : ℕ, |k * g - v| = |k - v / g| * g := by
    intro k
    rw [← abs_of_pos hg, ← abs_mul, abs_of_pos hg, sub_mul, div_mul_cancel₀ _ hg.ne']
  -- any other multiple is a whole step away from this one
  have hstep : ∀ k : ℕ, k ≠ m → 1 ≤ |m - v / g| + |k - v / g| := by
    intro k hk
    have hone : (1 : ℚ) ≤ |(m : ℚ) - k| := by
      have : (1 : ℤ) ≤ |(m : ℤ) - k| := Int.one_le_abs (by omega)
      exact_mod_cast this
    rw [abs_sub_comm (k : ℚ)]
    exact hone.trans (abs_sub_le _ _ _)
  have hhalf : |m - v / g| ≤ 1 / 2 := h.elim le_of_lt fun h => h.1.le
  constructor
  · intro k
    rw [hscale, hscale]
    refine mul_le_mul_of_nonneg_right ?_ hg.le
    by_cases hk : k = m
    · rw [hk]
    · have := hstep k hk
      linarith
  · intro k hk htie
    rw [hscale, hscale, mul_left_inj' hg.ne'] at htie
    have := hstep k hk
    exact h.elim (fun h => by linarith) And.right

theorem NearestMultiple.le_of_lt (h : NearestMultiple g v m) (hg : 0 < g) (hk : v < k * g) :
    m ≤ k := by
  by_contra hlt
  have hkm : (k : ℚ) * g < m * g := mul_lt_mul_of_pos_right (Nat.cast_lt.2 (not_le.1 hlt)) hg
  have := (abs_sub_le_iff_of_gt hkm).1 (h.le k)
  linarith

theorem NearestMultiple.ge_of_le (h : NearestMultiple g v m) (hg : 0 < g) (hk : k * g ≤ v) :
    k ≤ m := by
  by_contra hlt
  have hmk : (m : ℚ) * g < k * g := mul_lt_mul_of_pos_right (Nat.cast_lt.2 (not_le.1 hlt)) hg
  have := (abs_sub_le_iff_of_lt hmk).1 (h.le k)
  linarith

theorem NearestMultiple.eq_succ_iff (h : NearestMultiple g v m) (hg : 0 < g) (hodd : k % 2 = 1)
    (hv : v < (k + 1 : ℕ) * g) : m = k + 1 ↔ k * g + (k + 1 : ℕ) * g ≤ 2 * v := by
  constructor
  · rintro rfl
    have hlt : (k : ℚ) * g < (k + 1 : ℕ) * g :=
      mul_lt_mul_of_pos_right (Nat.cast_lt.2 (Nat.lt_succ_self k)) hg
    exact (abs_sub_le_iff_of_gt hlt).1 (h.le k)
  · intro hmid
    by_contra hne
    have hmk : m < k + 1 := Nat.lt_of_le_of_ne (h.le_of_lt hg hv) hne
    have hlt : (m : ℚ) * g < (k + 1 : ℕ) * g := mul_lt_mul_of_pos_right (Nat.cast_lt.2 hmk) hg
    have hle := h.le (k + 1)
    have hkm : k * g ≤ m * g := by
      have := (abs_sub_le_iff_of_lt hlt).1 hle
      linarith
    -- so it is the one before, which is odd and as far off
    obtain rfl : m = k :=
      Nat.le_antisymm (Nat.le_of_lt_succ hmk) (Nat.cast_le.1 (le_of_mul_le_mul_right hkm hg))
    have htie := le_antisymm ((abs_sub_le_iff_of_gt hlt).2 hmid) hle
    have := h.even (m + 1) (Nat.succ_ne_self m) htie
    omega

/-! ## The grid of a ratio -/

theorem div_lt_mul_step_iff (hd : 0 < d) :
    (n : ℚ) / d < k * step e ↔ n * unitsPerOne < k * twoPow e * d := by
  rw [step, ← mul_div_assoc, div_lt_div_iff₀ (Nat.cast_pos.2 hd) unitsPerOne_pos]
  exact_mod_cast Iff.rfl

theorem lt_step_gridExponent (n : ℕ) (hd : 0 < d) :
    (n : ℚ) / d < twoPow 53 * step (gridExponent (n * unitsPerOne) d) := by
  rw [div_lt_mul_step_iff hd, ← Nat.div_lt_iff_lt_mul hd, ← twoPow_add]
  have hlog : n * unitsPerOne / d < twoPow ((n * unitsPerOne / d).log2 + 1) := Nat.lt_log2_self
  refine Nat.lt_of_lt_of_le hlog (twoPow_le_twoPow ?_)
  unfold gridExponent
  omega

theorem step_gridExponent_le (n : ℕ) (hd : 0 < d) :
    gridExponent (n * unitsPerOne) d = 0 ∨
      twoPow 52 * step (gridExponent (n * unitsPerOne) d) ≤ (n : ℚ) / d := by
  rw [← not_lt, div_lt_mul_step_iff hd, not_lt, ← Nat.le_div_iff_mul_le hd, ← twoPow_add]
  rw [or_iff_not_imp_left]
  intro he
  have hlog : 52 + gridExponent (n * unitsPerOne) d = (n * unitsPerOne / d).log2 := by
    unfold gridExponent at he ⊢
    omega
  have hne : n * unitsPerOne / d ≠ 0 := by
    intro h
    rw [gridExponent, h] at he
    exact he rfl
  rw [hlog]
  exact Nat.log2_self_le hne

/-- **The rounded quotient is the nearest multiple of the step.** -/
theorem nearestMultiple_divEven (n e : ℕ) (hd : 0 < d) :
    NearestMultiple (step e) ((n : ℚ) / d) (divEven (n * unitsPerOne) (d * twoPow e)) := by
  have hquot : (n : ℚ) / d / step e = (n * unitsPerOne : ℕ) / (d * twoPow e : ℕ) := by
    rw [step, div_div_div_eq, Nat.cast_mul, Nat.cast_mul]
  refine nearestMultiple_of_abs_sub (step_pos e) ?_
  rw [hquot]
  exact abs_divEven_sub _ (Nat.mul_pos hd (twoPow_pos e))

/-- **Nearest on the grid is nearest of all**: what is not on the grid is of a finer one, and is farther
off than the least number with 53 bits on this one. -/
theorem nearest_of_nearestMultiple (h : NearestMultiple (step e) v m)
    (he : e = 0 ∨ twoPow 52 * step e ≤ v) (hx : x.value = m * step e)
    (heven : m % 2 = 0 → x.significand % 2 = 0) : x.Nearest v := by
  have key : ∀ y : Magnitude, (∃ k : ℕ, y.value = k * step e) ∨ |x.value - v| < |y.value - v| := by
    intro y
    rcases Nat.lt_or_ge y.exponent e with hlt | hge
    · have hlow := he.resolve_left (by omega)
      have hy := Magnitude.value_lt_of_lt hlt
      have hle := h.le (twoPow 52)
      right
      rw [hx]
      refine hle.trans_lt ?_
      rw [abs_of_nonpos (by linarith), abs_of_nonpos (by linarith)]
      linarith
    · exact Or.inl ⟨_, Magnitude.value_eq_of_le hge⟩
  constructor
  · intro y
    rcases key y with ⟨k, hk⟩ | hlt
    · rw [hx, hk]
      exact h.le k
    · exact hlt.le
  · intro y hne htie
    rcases key y with ⟨k, hk⟩ | hlt
    · refine heven (h.even k ?_ (by rw [← hk, ← hx, htie]))
      rintro rfl
      exact hne (Magnitude.eq_of_value_eq (hk.trans hx.symm))
    · exact absurd htie hlt.ne'

/-! ## Ratios -/

theorem Magnitude.eq_of_ofParts? (h : ofParts? m e = some x) :
    x.significand = m ∧ x.exponent = e := by
  unfold ofParts? at h
  split at h
  · obtain rfl := Option.some.inj h
    exact ⟨rfl, rfl⟩
  · cases h

theorem Magnitude.ofParts?_eq_none_iff (hm : m < twoPow 53) (hfull : e = 0 ∨ twoPow 52 ≤ m) :
    ofParts? m e = none ↔ 2045 < e := by
  unfold ofParts?
  split
  · next h => exact iff_of_false (Option.some_ne_none _) (Nat.not_lt.2 h.2.1)
  · next h => exact iff_of_true rfl (Nat.lt_of_not_le fun he => h ⟨hm, he, hfull⟩)

/-- **The magnitude of a ratio is the nearest one.** -/
theorem nearest_of_ofRatio? (hd : 0 < d) (h : Magnitude.ofRatio? n d = some x) :
    x.Nearest ((n : ℚ) / d) := by
  have hm := nearestMultiple_divEven n (gridExponent (n * unitsPerOne) d) hd
  have he := step_gridExponent_le n hd
  unfold Magnitude.ofRatio? at h
  dsimp only at h
  split at h
  · next hcarry =>
    obtain ⟨hsig, hexp⟩ := Magnitude.eq_of_ofParts? h
    refine nearest_of_nearestMultiple hm he ?_ fun _ => hsig ▸ by decide
    rw [x.value_eq, hsig, hexp, hcarry, step_add, ← mul_assoc, ← Nat.cast_mul, ← twoPow_add]
  · obtain ⟨hsig, hexp⟩ := Magnitude.eq_of_ofParts? h
    refine nearest_of_nearestMultiple hm he ?_ fun heven => hsig ▸ heven
    rw [x.value_eq, hsig, hexp]

/-- The bound of the finite values is half a step past the greatest magnitude. -/
theorem two_mul_overflowBound : 2 * overflowBound = (2 ^ 54 - 1) * step 2045 := by
  have hstep : step 2045 = 2 ^ 971 := by
    rw [step, unitsPerOne, cast_twoPow, cast_twoPow, show 2045 = 971 + 1074 from rfl, pow_add,
      mul_div_cancel_right₀ _ (by positivity)]
  rw [hstep, overflowBound, show 1024 = 54 + 970 from rfl, pow_add,
    show 971 = 970 + 1 from rfl, pow_succ (2 : ℚ) 970]
  generalize (2 : ℚ) ^ 970 = b
  ring

theorem Magnitude.value_lt_overflowBound (x : Magnitude) : x.value < overflowBound := by
  have hsig : (x.significand : ℚ) ≤ 2 ^ 53 - 1 := by
    have hlt := x.significand_lt
    rw [le_sub_iff_add_le, ← cast_twoPow]
    exact_mod_cast hlt
  have hstep := mul_le_mul hsig (step_le_step x.exponent_le) (step_pos _).le (by norm_num)
  have hbound := two_mul_overflowBound
  have hpos := step_pos 2045
  rw [x.value_eq]
  linarith

/-- **A magnitude is rounded to itself.** -/
theorem RoundsTo.self (x : Magnitude) : RoundsTo x.value (.finite false x) :=
  .finite x.value_lt_overflowBound x.nearest_self

theorem ofRatio?_eq_none_iff_grid (n : ℕ) (hd : 0 < d) :
    let e := gridExponent (n * unitsPerOne) d
    Magnitude.ofRatio? n d = none ↔
      2045 < e ∨ e = 2045 ∧ divEven (n * unitsPerOne) (d * twoPow e) = twoPow 53 := by
  intro e
  have hm := nearestMultiple_divEven n e hd
  have hle : divEven (n * unitsPerOne) (d * twoPow e) ≤ twoPow 53 :=
    hm.le_of_lt (step_pos e) (lt_step_gridExponent n hd)
  have hfull : e = 0 ∨ twoPow 52 ≤ divEven (n * unitsPerOne) (d * twoPow e) :=
    (step_gridExponent_le n hd).imp id (hm.ge_of_le (step_pos e))
  unfold Magnitude.ofRatio?
  change (if divEven (n * unitsPerOne) (d * twoPow e) = twoPow 53 then
      Magnitude.ofParts? (twoPow 52) (e + 1) else Magnitude.ofParts? _ e) = none ↔ _
  split
  · next h =>
    rw [Magnitude.ofParts?_eq_none_iff (by decide) (Or.inr (Nat.le_refl _))]
    omega
  · next h =>
    rw [Magnitude.ofParts?_eq_none_iff (by omega) hfull]
    omega

/-- **A ratio has no magnitude exactly when it is too large.** -/
theorem ofRatio?_eq_none_iff (n : ℕ) (hd : 0 < d) :
    Magnitude.ofRatio? n d = none ↔ overflowBound ≤ (n : ℚ) / d := by
  refine (ofRatio?_eq_none_iff_grid n hd).trans ?_
  have hm := nearestMultiple_divEven n (gridExponent (n * unitsPerOne) d) hd
  have hlt := lt_step_gridExponent n hd
  have hlow := step_gridExponent_le n hd
  have hbound := two_mul_overflowBound
  have hpos := step_pos 2045
  generalize gridExponent (n * unitsPerOne) d = e at *
  rcases Nat.lt_trichotomy e 2045 with he | rfl | he
  · -- a smaller step is half of the greatest one at most
    have hstep := step_le_step (Nat.succ_le_of_lt he)
    rw [Nat.succ_eq_add_one, step_add, cast_twoPow] at hstep
    rw [cast_twoPow] at hlt
    refine iff_of_false (by omega) (not_le.2 ?_)
    linarith
  · have hmid := hm.eq_succ_iff (k := twoPow 53 - 1) hpos (by decide) hlt
    have hsum : (twoPow 53 - 1 : ℕ) * step 2045 + (twoPow 53 - 1 + 1 : ℕ) * step 2045 =
        2 * overflowBound := by
      rw [hbound, Nat.sub_add_cancel (twoPow_pos 53), Nat.cast_sub (twoPow_pos 53), cast_twoPow]
      push_cast
      ring
    rw [hsum, mul_le_mul_iff_right₀ two_pos] at hmid
    rw [← hmid]
    exact ⟨fun h => (h.resolve_left (lt_irrefl _)).2, fun h => Or.inr ⟨rfl, h⟩⟩
  · have hstep := step_le_step (Nat.succ_le_of_lt he)
    rw [Nat.succ_eq_add_one, step_add, cast_twoPow] at hstep
    have hlow := hlow.resolve_left (by omega)
    rw [cast_twoPow] at hlow
    refine iff_of_true (Or.inl he) ?_
    linarith

/-! ## Decimals -/

theorem cast_tenPow (n : ℕ) : (tenPow n : ℚ) = 10 ^ n := Nat.cast_pow 10 n

theorem Decimal.value_eq_ratio (x : Decimal) :
    x.value = x.ratio.1 / x.ratio.2 ∧ 0 < x.ratio.2 := by
  obtain ⟨c, e⟩ := x
  cases e with
  | ofNat e =>
    refine ⟨?_, Nat.one_pos⟩
    change (c : ℚ) * 10 ^ (e : ℤ) = (c * tenPow e : ℕ) / (1 : ℕ)
    rw [zpow_natCast, Nat.cast_mul, cast_tenPow, Nat.cast_one, div_one]
  | negSucc e =>
    refine ⟨?_, tenPow_pos _⟩
    change (c : ℚ) * 10 ^ Int.negSucc e = c / (tenPow (e + 1) : ℕ)
    rw [zpow_negSucc, cast_tenPow, div_eq_mul_inv]

theorem Decimal.magnitude?_eq (x : Decimal) :
    x.magnitude? = Magnitude.ofRatio? x.ratio.1 x.ratio.2 := by
  rw [magnitude?]

/-- The cases of a rounded decimal. The definition is opened by its name alone: with the decimal in
place the number of units would be computed. -/
theorem Decimal.toBinary64_eq_elim (x : Decimal) :
    x.toBinary64 = x.magnitude?.elim (.infinite false) (.finite false) := by
  generalize hf : Decimal.toBinary64 = f
  delta Decimal.toBinary64 at hf
  subst hf
  beta_reduce
  cases x.magnitude? with
  | some m => rfl
  | none => rfl

/-- **The value of a decimal is what its number is rounded to.** -/
theorem Decimal.roundsTo_toBinary64 (x : Decimal) : RoundsTo x.value x.toBinary64 := by
  obtain ⟨hval, hpos⟩ := x.value_eq_ratio
  have hnone := ofRatio?_eq_none_iff x.ratio.1 hpos
  rw [← hval, ← x.magnitude?_eq] at hnone
  have hsome : ∀ y, x.magnitude? = some y → y.Nearest x.value := by
    intro y h
    rw [x.magnitude?_eq] at h
    rw [hval]
    exact nearest_of_ofRatio? hpos h
  rw [x.toBinary64_eq_elim]
  cases h : x.magnitude? with
  | some y =>
    refine .finite ?_ (hsome y h)
    rw [← not_le, ← hnone, h]
    exact Option.some_ne_none y
  | none => exact .infinite (hnone.1 h)

end BudgetLexer
