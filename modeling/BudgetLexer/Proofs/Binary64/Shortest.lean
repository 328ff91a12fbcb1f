import BudgetLexer.Binary64.Layout
import BudgetLexer.Proofs.Binary64.Rounding
import Mathlib.Algebra.Order.Group.Pointwise.Interval

/-!
# The shortest decimal is correct

A decimal of few figures is a multiple of a large power of ten. On each side of a magnitude the multiple
next to it is tried, and this is enough: what is rounded to the magnitude has no gaps, so if any multiple
is rounded to it, then so is the next one on the same side.

* `HasFigures k v`: the number `v` is a decimal of at most `k` figures.
* `IsShortest x k v`: no decimal of fewer than `k` figures is rounded to `x`, and of those of `k` figures
  that are, `v` is nearest to `x`.
* `Magnitude.leadingExponent_bounds`: the power of ten of the first figure.
* `Magnitude.below`, `Magnitude.above`: the two multiples that are tried; `Magnitude.exists_toward` says
  that one of them lies between the magnitude and any other decimal of as many figures.
* `Magnitude.neighbour?_eq_some`, `Magnitude.not_roundsTo_of_neighbour?_none`: what one step of the
  search finds, and what it means that it finds nothing.
* **`Magnitude.isShortest_shortest`**: the decimal that is found.
-/

namespace BudgetLexer

/-- **The number has a decimal of at most `k` figures.** -/
def HasFigures (k : ℕ) (v : ℚ) : Prop := ∃ (m : ℕ) (p : ℤ), m < 10 ^ k ∧ v = m * 10 ^ p

/-- **The number is a shortest decimal that is rounded to the magnitude**, and of those of `k` figures
the nearest to it. -/
structure IsShortest (x : Magnitude) (k : ℕ) (v : ℚ) : Prop where
  rounds : RoundsTo v (.finite false x)
  figures : HasFigures k v
  least : ∀ j < k, ∀ w, HasFigures j w → ¬ RoundsTo w (.finite false x)
  nearest : ∀ w, HasFigures k w → RoundsTo w (.finite false x) → |v - x.value| ≤ |w - x.value|

variable {x : Magnitude} {c : Decimal} {d k n : ℕ} {v w : ℚ} {p q : ℤ}

/-! ## Powers of ten -/

theorem tenZpow_pos (p : ℤ) : (0 : ℚ) < 10 ^ p := zpow_pos (by decide) p

theorem tenZpow_add (p q : ℤ) : (10 : ℚ) ^ (p + q) = 10 ^ p * 10 ^ q := zpow_add₀ (by decide) p q

theorem tenPow_mul_tenZpow (i : ℕ) : (tenPow i : ℚ) * 10 ^ (-i : ℤ) = 1 := by
  rw [cast_tenPow, ← zpow_natCast, ← tenZpow_add, add_neg_cancel, zpow_zero]

theorem multiple_le_iff {a b : ℕ} : (a : ℚ) * 10 ^ p ≤ b * 10 ^ p ↔ a ≤ b := by
  rw [mul_le_mul_iff_left₀ (tenZpow_pos p), Nat.cast_le]

theorem multiple_lt_iff {a b : ℕ} : (a : ℚ) * 10 ^ p < b * 10 ^ p ↔ a < b := by
  rw [mul_lt_mul_iff_left₀ (tenZpow_pos p), Nat.cast_lt]

theorem tenPow_eq (i : ℕ) : tenPow i = 5 ^ i * twoPow i := Nat.mul_pow 5 2 i

theorem div_twoPow_eq (n i : ℕ) : (n : ℚ) / twoPow i = (n * 5 ^ i : ℕ) * 10 ^ (-i : ℤ) := by
  have hne : (twoPow i : ℚ) ≠ 0 := Nat.cast_ne_zero.2 (twoPow_pos i).ne'
  have hone := tenPow_mul_tenZpow i
  rw [tenPow_eq, Nat.cast_mul, mul_right_comm] at hone
  rw [div_eq_iff hne, Nat.cast_mul, mul_assoc, mul_assoc, ← mul_assoc ((5 ^ i : ℕ) : ℚ), hone, mul_one]

theorem tenZpow_eq_of_le (h : p ≤ q) : (10 : ℚ) ^ q = (10 ^ (q - p).toNat : ℕ) * 10 ^ p := by
  rw [Nat.cast_pow, Nat.cast_ofNat, ← zpow_natCast, ← tenZpow_add, Int.toNat_of_nonneg (by omega),
    Int.sub_add_cancel]

theorem digitsOf_bounds (h : n ≠ 0) :
    10 ^ ((digitsOf n).length - 1) ≤ n ∧ n < 10 ^ (digitsOf n).length := by
  have hpos : 0 < (digitsOf n).length := Nat.length_toDigits_pos
  have hlen : ∀ k, 0 < k → ((digitsOf n).length ≤ k ↔ n < 10 ^ k) := fun k hk =>
    Nat.length_toDigits_le_iff (by decide) hk
  refine ⟨?_, (hlen _ hpos).1 (Nat.le_refl _)⟩
  rcases Nat.eq_zero_or_pos ((digitsOf n).length - 1) with hone | hmore
  · rw [hone]
    exact Nat.pos_of_ne_zero h
  · rw [← Nat.not_lt, ← hlen _ hmore]
    omega

/-- The power of ten of the first digit, for a number with the whole part `n` that is shifted by `p`. -/
theorem tenZpow_bounds (hn : n ≠ 0) (hlo : n ≤ v) (hhi : v < n + 1) (p : ℤ) :
    10 ^ (p + (digitsOf n).length - 1) ≤ v * 10 ^ p ∧
      v * 10 ^ p < 10 ^ (p + (digitsOf n).length) := by
  obtain ⟨hle, hlt⟩ := digitsOf_bounds hn
  have hpos : 0 < (digitsOf n).length := Nat.length_toDigits_pos
  have hpow : ∀ i : ℕ, (10 : ℚ) ^ (p + i) = (10 ^ i : ℕ) * 10 ^ p := by
    intro i
    rw [tenZpow_add, mul_comm, zpow_natCast, Nat.cast_pow, Nat.cast_ofNat]
  constructor
  · rw [show p + ((digitsOf n).length : ℤ) - 1 = p + ((digitsOf n).length - 1 : ℕ) by omega, hpow]
    exact mul_le_mul_of_nonneg_right ((Nat.cast_le.2 hle).trans hlo) (tenZpow_pos p).le
  · rw [hpow]
    have hsucc : (n : ℚ) + 1 ≤ (10 ^ (digitsOf n).length : ℕ) := by
      exact_mod_cast Nat.succ_le_of_lt hlt
    exact mul_lt_mul_of_pos_right (hhi.trans_le hsucc) (tenZpow_pos p)

theorem HasFigures.of_le (hk : 0 < k) (h : n ≤ 10 ^ k) (p : ℤ) : HasFigures k (n * 10 ^ p) := by
  rcases Nat.lt_or_eq_of_le h with h | rfl
  · exact ⟨n, p, h, rfl⟩
  · -- the next power of ten has one figure
    refine ⟨1, k + p, Nat.one_lt_pow hk.ne' (by decide), ?_⟩
    rw [Nat.cast_pow, Nat.cast_ofNat, tenZpow_add, zpow_natCast, Nat.cast_one, one_mul]

theorem findSome?_range {α : Type} {f : ℕ → Option α} {n i : ℕ} (hi : i < n) (h : f i ≠ none) :
    ∃ j a, (List.range n).findSome? f = some a ∧ f j = some a ∧ ∀ l < j, f l = none := by
  have hsome : ((List.range n).findSome? f).isSome = true :=
    List.findSome?_isSome_iff.2 ⟨i, List.mem_range.2 hi, Option.isSome_iff_ne_none.2 h⟩
  obtain ⟨a, ha⟩ := Option.isSome_iff_exists.1 hsome
  obtain ⟨l₁, j, l₂, hl, hj, hbefore⟩ := List.findSome?_eq_some_iff.1 ha
  rw [List.range_eq_range', List.range'_eq_append_iff] at hl
  obtain ⟨k, hk, rfl, hcons⟩ := hl
  obtain ⟨rfl, -, -⟩ := List.range'_eq_cons_iff.1 hcons.symm
  refine ⟨_, a, ha, hj, fun l hl => hbefore l (List.mem_range'_1.2 ⟨Nat.zero_le l, ?_⟩)⟩
  omega

namespace Magnitude

/-! ## The first figure -/

theorem unitsPerOne_le : unitsPerOne ≤ tenPow 324 := by decide +kernel

/-- **The first figure of a magnitude** stands for its leading exponent. -/
theorem leadingExponent_bounds (hx : x.significand ≠ 0) :
    10 ^ x.leadingExponent ≤ x.value ∧ x.value < 10 ^ (x.leadingExponent + 1) := by
  have hunits : 0 < x.units := Nat.mul_pos (Nat.pos_of_ne_zero hx) (twoPow_pos _)
  have hN : x.units * tenPow 324 / unitsPerOne ≠ 0 := by
    refine (Nat.div_pos ?_ (twoPow_pos _)).ne'
    exact unitsPerOne_le.trans (Nat.le_mul_of_pos_left _ hunits)
  have hvalue : (x.units * tenPow 324 : ℕ) / (unitsPerOne : ℚ) * 10 ^ (-(324 : ℕ) : ℤ) = x.value := by
    rw [Nat.cast_mul, mul_div_right_comm, mul_assoc, tenPow_mul_tenZpow, mul_one, value]
  have hd : 0 < unitsPerOne := twoPow_pos 1074
  obtain ⟨hfloor, hceil⟩ := div_bounds (x.units * tenPow 324) hd
  have hbounds := tenZpow_bounds hN hfloor hceil (-(324 : ℕ))
  have hexp : x.leadingExponent =
      -(324 : ℕ) + (digitsOf (x.units * tenPow 324 / unitsPerOne)).length - 1 := by
    rw [leadingExponent]
    generalize (digitsOf _).length = n
    omega
  rw [hexp, Int.sub_add_cancel]
  rwa [hvalue] at hbounds

theorem value_lt_tenPow_mul (hx : x.significand ≠ 0) (hp : x.leadingExponent + 1 - k = p) :
    x.value < (10 ^ k : ℕ) * 10 ^ p := by
  have hlt := (leadingExponent_bounds hx).2
  rw [show x.leadingExponent + 1 = k + p by omega, tenZpow_add, zpow_natCast] at hlt
  rwa [Nat.cast_pow, Nat.cast_ofNat]

/-! ## The multiples of a power of ten beside a magnitude -/

theorem value_eq_scaled (x : Magnitude) (p : ℤ) :
    x.value = (x.scaled p).1 / (x.scaled p).2 * 10 ^ p ∧ 0 < (x.scaled p).2 := by
  have hd : 0 < unitsPerOne := twoPow_pos 1074
  cases p with
  | ofNat p =>
    have hscaled : x.scaled (.ofNat p) = (x.units, unitsPerOne * tenPow p) := rfl
    have hne : (tenPow p : ℚ) ≠ 0 := Nat.cast_ne_zero.2 (tenPow_pos p).ne'
    rw [hscaled]
    dsimp only
    refine ⟨?_, Nat.mul_pos hd (tenPow_pos p)⟩
    rw [Int.ofNat_eq_natCast, zpow_natCast, ← cast_tenPow, Nat.cast_mul, ← div_div,
      div_mul_cancel₀ _ hne, value]
  | negSucc p =>
    have hscaled : x.scaled (.negSucc p) = (x.units * tenPow (p + 1), unitsPerOne) := rfl
    rw [hscaled]
    dsimp only
    refine ⟨?_, hd⟩
    rw [Int.negSucc_eq, ← Nat.cast_succ, Nat.cast_mul, mul_div_right_comm, mul_assoc,
      tenPow_mul_tenZpow, mul_one, value]

/-- The greatest multiple of `10 ^ p` that is not above the magnitude. -/
def below (x : Magnitude) (p : ℤ) : Decimal := ⟨(x.scaled p).1 / (x.scaled p).2, p⟩

/-- The least multiple of `10 ^ p` that is above the magnitude. -/
def above (x : Magnitude) (p : ℤ) : Decimal := ⟨(x.scaled p).1 / (x.scaled p).2 + 1, p⟩

/-- The multiple of `10 ^ p` nearest to the magnitude. -/
def nearby (x : Magnitude) (p : ℤ) : Decimal := ⟨divEven (x.scaled p).1 (x.scaled p).2, p⟩

theorem below_le (x : Magnitude) (p : ℤ) : (x.below p).value ≤ x.value := by
  obtain ⟨hvalue, hd⟩ := x.value_eq_scaled p
  rw [hvalue]
  exact mul_le_mul_of_nonneg_right (div_bounds _ hd).1 (tenZpow_pos p).le

theorem lt_above (x : Magnitude) (p : ℤ) : x.value < (x.above p).value := by
  obtain ⟨hvalue, hd⟩ := x.value_eq_scaled p
  rw [hvalue, Decimal.value, above, Nat.cast_succ]
  exact mul_lt_mul_of_pos_right (div_bounds _ hd).2 (tenZpow_pos p)

theorem multiple_cases (x : Magnitude) (p : ℤ) (m : ℕ) :
    (m * 10 ^ p ≤ x.value → m * 10 ^ p ≤ (x.below p).value) ∧
      (x.value < m * 10 ^ p → (x.above p).value ≤ m * 10 ^ p) := by
  constructor
  · intro h
    have hlt := h.trans_lt (x.lt_above p)
    rw [Decimal.value, above, multiple_lt_iff] at hlt
    rw [Decimal.value, below, multiple_le_iff]
    exact Nat.le_of_lt_succ hlt
  · intro h
    have hlt := (x.below_le p).trans_lt h
    rw [Decimal.value, below, multiple_lt_iff] at hlt
    rw [Decimal.value, above, multiple_le_iff]
    exact Nat.succ_le_of_lt hlt

/-- **One of the two multiples lies between the magnitude and a decimal of as many figures.** -/
theorem exists_toward (hx : x.significand ≠ 0) (hk : 0 < k) (hw : HasFigures k w)
    (hp : x.leadingExponent + 1 - k = p) :
    ∃ b, (b = x.below p ∨ b = x.above p) ∧ b.value ∈ Set.uIcc w x.value := by
  have hbelow : w ≤ x.value ∧ w ≤ (x.below p).value →
      ∃ b, (b = x.below p ∨ b = x.above p) ∧ b.value ∈ Set.uIcc w x.value := fun h =>
    ⟨_, Or.inl rfl, Set.mem_uIcc.2 (Or.inl ⟨h.2, x.below_le p⟩)⟩
  obtain ⟨m, q, hm, rfl⟩ := hw
  rcases lt_or_ge q p with hqp | hpq
  · -- a decimal of a finer grid is below the power of ten of the first figure, which is a multiple
    have hlead := (leadingExponent_bounds hx).1
    have hw : (m : ℚ) * 10 ^ q < 10 ^ x.leadingExponent := by
      calc (m : ℚ) * 10 ^ q < (10 ^ k : ℕ) * 10 ^ q := multiple_lt_iff.2 hm
        _ = 10 ^ (k + q) := by rw [Nat.cast_pow, Nat.cast_ofNat, tenZpow_add, zpow_natCast]
        _ ≤ 10 ^ x.leadingExponent := zpow_le_zpow_right₀ (by decide) (by omega)
    have hpow := tenZpow_eq_of_le (show p ≤ x.leadingExponent by omega)
    have hle := (x.multiple_cases p _).1 (hpow ▸ hlead)
    rw [← hpow] at hle
    exact hbelow ⟨hw.le.trans hlead, hw.le.trans hle⟩
  · have hw : (m : ℚ) * 10 ^ q = (m * 10 ^ (q - p).toNat : ℕ) * 10 ^ p := by
      rw [tenZpow_eq_of_le hpq, ← mul_assoc, ← Nat.cast_mul]
    rw [hw] at hbelow ⊢
    obtain ⟨hle, hlt⟩ := x.multiple_cases p (m * 10 ^ (q - p).toNat)
    rcases le_or_gt _ x.value with h | h
    · exact hbelow ⟨h, hle h⟩
    · exact ⟨_, Or.inr rfl, Set.mem_uIcc.2 (Or.inr ⟨(x.lt_above p).le, hlt h⟩)⟩

theorem coefficient_above_le (hx : x.significand ≠ 0) (hp : x.leadingExponent + 1 - k = p) :
    (x.above p).coefficient ≤ 10 ^ k :=
  multiple_le_iff.1 ((x.multiple_cases p _).2 (value_lt_tenPow_mul hx hp))

theorem nearby_cases (x : Magnitude) (p : ℤ) : x.nearby p = x.below p ∨ x.nearby p = x.above p := by
  have hle := divEven_le (x.scaled p).1 (x.scaled p).2
  have hge := le_divEven (x.scaled p).1 (x.scaled p).2
  rw [nearby, below, above, Decimal.mk.injEq, Decimal.mk.injEq]
  omega

theorem abs_nearby_le (x : Magnitude) (p : ℤ) (m : ℕ) :
    |(x.nearby p).value - x.value| ≤ |Decimal.value ⟨m, p⟩ - x.value| := by
  obtain ⟨hvalue, hd⟩ := x.value_eq_scaled p
  have hnear : NearestMultiple (10 ^ p) x.value (divEven (x.scaled p).1 (x.scaled p).2) := by
    refine nearestMultiple_of_abs_sub (tenZpow_pos p) ?_
    rw [hvalue, mul_div_cancel_right₀ _ (tenZpow_pos p).ne']
    exact abs_divEven_sub _ hd
  rw [nearby, Decimal.value, Decimal.value]
  exact hnear.le m

/-! ## Reading back -/

theorem readsBack_iff : x.readsBack c = true ↔ RoundsTo c.value (.finite false x) := by
  have hround := c.roundsTo_toBinary64
  have helim := c.toBinary64_eq_elim
  rw [readsBack, beq_iff_eq]
  constructor
  · intro h
    rwa [helim, h] at hround
  · intro h
    have heq := hround.unique h
    rw [helim] at heq
    cases hm : c.magnitude? with
    | some y =>
      rw [hm] at heq
      exact congrArg some (Binary64.finite.inj heq).2
    | none =>
      rw [hm] at heq
      cases heq

theorem readsBack_of_mem (hw : RoundsTo w (.finite false x)) (hc : c.value ∈ Set.uIcc w x.value) :
    x.readsBack c = true := by
  have hround := c.roundsTo_toBinary64
  have hself := RoundsTo.self x
  have heq : c.toBinary64 = .finite false x := by
    rcases Set.mem_uIcc.1 hc with ⟨hwc, hcx⟩ | ⟨hxc, hcw⟩
    · exact hw.of_between hself hround hwc hcx
    · exact hself.of_between hw hround hxc hcw
  rw [readsBack_iff]
  rwa [heq] at hround

/-- The cases of a neighbour. The definition is opened by its name alone: with the magnitude in place
the number of units would be computed. -/
theorem neighbour?_eq (hp : x.leadingExponent + 1 - k = p) :
    x.neighbour? k =
      if x.readsBack (x.below p) then
        if x.readsBack (x.above p) then some (x.nearby p) else some (x.below p)
      else if x.readsBack (x.above p) then some (x.above p) else none := by
  obtain ⟨f, hf⟩ : ∃ f, f = neighbour? := ⟨_, rfl⟩
  obtain ⟨reads, hreads⟩ : ∃ reads, reads = x.readsBack := ⟨_, rfl⟩
  obtain ⟨scaled, hscaled⟩ : ∃ scaled, scaled = x.scaled := ⟨_, rfl⟩
  rw [← hf]
  delta neighbour? at hf
  rw [hf]
  beta_reduce
  rw [hp, below, above, nearby, ← hreads, ← hscaled]
  dsimp only
  cases reads ⟨(scaled p).1 / (scaled p).2, p⟩ <;>
    cases reads ⟨(scaled p).1 / (scaled p).2 + 1, p⟩ <;> rfl

theorem readsBack_of_neighbour?_none (h : x.neighbour? k = none)
    (hp : x.leadingExponent + 1 - k = p) (hb : c = x.below p ∨ c = x.above p) :
    x.readsBack c = false := by
  rw [neighbour?_eq hp] at h
  split at h
  · split at h <;> cases h
  · next hbelow =>
    split at h
    · cases h
    · next habove =>
      rcases hb with rfl | rfl
      · exact Bool.eq_false_iff.2 hbelow
      · exact Bool.eq_false_iff.2 habove

theorem neighbour?_eq_some (h : x.neighbour? k = some c) (hp : x.leadingExponent + 1 - k = p) :
    (c = x.below p ∨ c = x.above p) ∧ x.readsBack c = true ∧
      ∀ b, b = x.below p ∨ b = x.above p → x.readsBack b = true →
        |c.value - x.value| ≤ |b.value - x.value| := by
  rw [neighbour?_eq hp] at h
  split at h
  · next hbelow =>
    split at h
    · next habove =>
      obtain rfl := Option.some.inj h
      refine ⟨x.nearby_cases p, ?_, ?_⟩
      · rcases x.nearby_cases p with heq | heq
        · exact (congrArg x.readsBack heq).trans hbelow
        · exact (congrArg x.readsBack heq).trans habove
      · rintro b (rfl | rfl) -
        · exact x.abs_nearby_le p _
        · exact x.abs_nearby_le p _
    · next habove =>
      obtain rfl := Option.some.inj h
      refine ⟨Or.inl rfl, hbelow, ?_⟩
      rintro b (rfl | rfl) hb
      · exact le_rfl
      · exact absurd hb habove
  · next hbelow =>
    split at h
    · next habove =>
      obtain rfl := Option.some.inj h
      refine ⟨Or.inr rfl, habove, ?_⟩
      rintro b (rfl | rfl) hb
      · exact absurd hb hbelow
      · exact le_rfl
    · cases h

/-- **Where there is no neighbour, no decimal of `k` figures is rounded to the magnitude.** -/
theorem not_roundsTo_of_neighbour?_none (hx : x.significand ≠ 0) (hk : 0 < k)
    (h : x.neighbour? k = none) (hw : HasFigures k w) : ¬ RoundsTo w (.finite false x) := by
  intro hround
  obtain ⟨b, hb, hmem⟩ := exists_toward hx hk hw rfl
  have hfalse := readsBack_of_neighbour?_none h rfl hb
  rw [readsBack_of_mem hround hmem] at hfalse
  cases hfalse

/-! ## The search -/

/-- **The magnitude itself is on the last grid that is tried.** -/
theorem hasFigures_value (hx : x.significand ≠ 0)
    (hk : x.leadingExponent + 1 - k = -(1074 : ℕ)) : HasFigures k x.value := by
  have hvalue : x.value = (x.units * 5 ^ 1074 : ℕ) * 10 ^ (-(1074 : ℕ) : ℤ) :=
    div_twoPow_eq x.units 1074
  have hlt := value_lt_tenPow_mul hx hk
  rw [hvalue] at hlt
  exact ⟨_, _, multiple_lt_iff.1 hlt, hvalue⟩

theorem le_leadingExponent (x : Magnitude) : -324 ≤ x.leadingExponent := by
  have hpos : 0 < (digitsOf (x.units * tenPow 324 / unitsPerOne)).length :=
    Nat.length_toDigits_pos
  rw [leadingExponent]
  generalize (digitsOf _).length = n at *
  omega

/-- **The shortest decimal is found**, on the first grid that has one. -/
theorem exists_shortest_eq (hx : x.significand ≠ 0) : ∃ k, 0 < k ∧
    x.neighbour? k = some x.shortest ∧ ∀ j < k, 0 < j → x.neighbour? j = none := by
  have hle := x.le_leadingExponent
  have hlast : x.neighbour? ((x.leadingExponent + 1074).toNat + 1) ≠ none := by
    intro h
    refine not_roundsTo_of_neighbour?_none hx (Nat.succ_pos _) h ?_ (RoundsTo.self x)
    exact hasFigures_value hx (by omega)
  obtain ⟨i, c, hfind, hi, hbefore⟩ := findSome?_range (f := fun i => x.neighbour? (i + 1))
    (show (x.leadingExponent + 1074).toNat < (x.leadingExponent + 1075).toNat by omega) hlast
  have hc : x.shortest = c := by
    rw [shortest, hfind, Option.getD_some]
  refine ⟨i + 1, Nat.succ_pos i, hc ▸ hi, ?_⟩
  intro j hj hpos
  obtain ⟨j, rfl⟩ := Nat.exists_eq_succ_of_ne_zero hpos.ne'
  exact hbefore j (by omega)

theorem not_roundsTo_zero (hx : x.significand ≠ 0) : ¬ RoundsTo 0 (.finite false x) := by
  intro h
  have hzero := RoundsTo.self zero
  rw [value_zero] at hzero
  have heq := (Binary64.finite.inj (h.unique hzero)).2
  exact hx (congrArg significand heq)

/-- **The decimal that is found is shortest**, and of the shortest ones nearest. -/
theorem isShortest_shortest (hx : x.significand ≠ 0) : ∃ k, IsShortest x k x.shortest.value := by
  obtain ⟨k, hk, hfound, hnone⟩ := exists_shortest_eq hx
  obtain ⟨hc, hback, hnear⟩ := neighbour?_eq_some hfound rfl
  refine ⟨k, readsBack_iff.1 hback, ?_, ?_, ?_⟩
  · have hle : x.shortest.coefficient ≤ 10 ^ k := by
      have habove := coefficient_above_le hx (k := k) rfl
      rcases hc with heq | heq
      · rw [heq]
        exact (Nat.le_succ _).trans habove
      · rwa [heq]
    exact .of_le hk hle _
  · intro j hj w hw
    rcases Nat.eq_zero_or_pos j with rfl | hpos
    · obtain ⟨m, p, hm, rfl⟩ := hw
      rw [Nat.lt_one_iff.1 hm, Nat.cast_zero, zero_mul]
      exact not_roundsTo_zero hx
    · exact not_roundsTo_of_neighbour?_none hx hpos (hnone j hj hpos) hw
  · intro w hw hround
    obtain ⟨b, hb, hmem⟩ := exists_toward hx hk hw rfl
    have hle := Set.abs_sub_right_of_mem_uIcc hmem
    rw [abs_sub_comm, abs_sub_comm x.value] at hle
    exact (hnear b hb (readsBack_of_mem hround hmem)).trans hle

end Magnitude

end BudgetLexer
