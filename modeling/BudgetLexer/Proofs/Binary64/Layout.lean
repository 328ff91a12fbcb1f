import BudgetLexer.Binary64.Layout
import BudgetLexer.Proofs.Binary64.Shortest
import BudgetLexer.Proofs.Numeral

/-!
# The text of a value writes its shortest decimal

The digits of the shortest decimal, without the zeros at the end, are laid out in one of two ways, and
either way they write the same number as before.

* `Numeral.written`: the exact number that the text of a value writes.
* `InPlace`, `WithExponent`: the two layouts.
* `inPlace_fixed`, `withExponent_scientific`: either of them writes the number of its digits.
* **`Magnitude.text_writes`**: the text of a magnitude writes its shortest decimal.
-/

namespace BudgetLexer

/-! ## What a text writes -/

namespace Numeral

/-- The power of ten at the end of a text. -/
def power : Text → ℤ
  | 'e' :: '-' :: es => -natOf es
  | 'e' :: '+' :: es => natOf es
  | _ => 0

/-- **The exact number that the text of a value writes**: a plain numeral, times the power of ten at the
end. -/
def written (t : Text) : ℚ :=
  value (t.takeWhile (· ≠ 'e')) * 10 ^ power (t.dropWhile (· ≠ 'e'))

variable {ds fs es : Text}

theorem ne_of_mem_plain (hd : ∀ c ∈ ds, isDigit c = true) (hf : ∀ c ∈ fs, isDigit c = true) :
    ∀ c ∈ plain ds fs, decide (c ≠ 'e') = true := by
  intro c hc
  rw [decide_eq_true_eq]
  rintro rfl
  rcases mem_plain hd hf hc with h | h
  · exact absurd h (by decide)
  · exact absurd h (by decide)

theorem written_plain (hd : ∀ c ∈ ds, isDigit c = true) (hf : ∀ c ∈ fs, isDigit c = true) :
    written (plain ds fs) = value (plain ds fs) := by
  obtain ⟨htake, hdrop⟩ := takeWhile_of_all (ne_of_mem_plain hd hf)
  have hpower : power [] = 0 := rfl
  rw [written, htake, hdrop, hpower, zpow_zero, mul_one]

theorem written_plain_append (hd : ∀ c ∈ ds, isDigit c = true) (hf : ∀ c ∈ fs, isDigit c = true)
    (es : Text) :
    written (plain ds fs ++ 'e' :: es) = value (plain ds fs) * 10 ^ power ('e' :: es) := by
  have hne := ne_of_mem_plain hd hf
  rw [written, List.takeWhile_append_of_pos hne, List.dropWhile_append_of_pos hne,
    List.takeWhile_cons_of_neg (by decide), List.dropWhile_cons_of_neg (by decide), List.append_nil]

end Numeral

variable {ds : Text} {e : ℤ} {x : Magnitude}

/-! ## Digits without final zeros -/

theorem Decimal.value_tenPow_mul (n i : ℕ) (p : ℤ) : value ⟨tenPow i * n, p⟩ = value ⟨n, i + p⟩ := by
  rw [value, value, Nat.cast_mul, cast_tenPow, tenZpow_add, zpow_natCast, mul_comm (10 ^ i : ℚ),
    mul_assoc]

theorem exists_append_zeros (ds : Text) : ∃ n, ds = dropFinalZeros ds ++ zeros n := by
  refine ⟨(ds.reverse.takeWhile (· == '0')).length, ?_⟩
  have hzeros : ds.reverse.takeWhile (· == '0') = zeros (ds.reverse.takeWhile (· == '0')).length := by
    refine List.eq_replicate_of_mem fun c hc => ?_
    simpa using List.all_eq_true.1 List.all_takeWhile c hc
  have hsplit := List.takeWhile_append_dropWhile (p := (· == '0')) (l := ds.reverse)
  have hreverse := congrArg List.reverse hsplit
  rw [List.reverse_append, List.reverse_reverse, hzeros, zeros, List.reverse_replicate] at hreverse
  exact hreverse.symm

theorem digits_dropFinalZeros {c : ℕ} (hc : c ≠ 0) (p : ℤ) :
    Digits (dropFinalZeros (digitsOf c)) ∧
      Decimal.value ⟨natOf (dropFinalZeros (digitsOf c)),
        p + (digitsOf c).length - (dropFinalZeros (digitsOf c)).length⟩ = Decimal.value ⟨c, p⟩ := by
  obtain ⟨n, hn⟩ := exists_append_zeros (digitsOf c)
  have hdigits : ∀ d ∈ dropFinalZeros (digitsOf c), isDigit d = true := fun d hd =>
    isDigit_of_mem_digitsOf (mem_of_mem_dropFinalZeros hd)
  have hvalue : c = tenPow n * natOf (dropFinalZeros (digitsOf c)) := by
    rw [← natOf_append_zeros, ← hn, natOf_digitsOf]
  have hlen : (digitsOf c).length = (dropFinalZeros (digitsOf c)).length + n := by
    have hlength := congrArg List.length hn
    rwa [List.length_append, length_zeros] at hlength
  generalize dropFinalZeros (digitsOf c) = ds at *
  refine ⟨⟨?_, hdigits⟩, ?_⟩
  · rintro rfl
    exact hc hvalue
  · have hexp : p + (digitsOf c).length - ds.length = n + p := by omega
    rw [hexp, ← Decimal.value_tenPow_mul, ← hvalue]

/-! ## The two layouts -/

open Numeral

/-- **Digits in place**: some before a point and some after it. -/
def InPlace (t : Text) : Prop := ∃ ds fs, Digits ds ∧ Digits fs ∧ t = plain ds fs

/-- **Digits with an exponent**: one of them before a point, if there are more, then a letter, a sign and
at least two digits. -/
def WithExponent (t : Text) : Prop := ∃ d fs s es, isDigit d = true ∧ (∀ c ∈ fs, isDigit c = true) ∧
  (s = '+' ∨ s = '-') ∧ Digits es ∧ 2 ≤ es.length ∧ t = plain [d] fs ++ 'e' :: s :: es

theorem fixed_negSucc (hd : Digits ds) (k : ℕ) :
    fixed ds (.negSucc k) = plain (zeros 1) (zeros k ++ ds) := by
  rw [plain, if_neg (hd.zeros_append k).1]
  rfl

theorem fixed_of_lt {k : ℕ} (h : k + 1 < ds.length) :
    fixed ds k = plain (ds.take (k + 1)) (ds.drop (k + 1)) := by
  have hne : ds.drop (k + 1) ≠ [] := fun e => Nat.not_le.2 h (List.drop_eq_nil_iff.1 e)
  change ds.take (k + 1) ++ zeros (k + 1 - (ds.take (k + 1)).length) ++
    '.' :: (if (ds.drop (k + 1)).isEmpty then ['0'] else ds.drop (k + 1)) = _
  rw [plain, if_neg hne, List.length_take_of_le h.le, Nat.sub_self,
    if_neg (mt List.isEmpty_iff.1 hne), zeros, List.replicate_zero, List.append_nil]

theorem fixed_of_le {k : ℕ} (h : ds.length ≤ k + 1) :
    fixed ds k = plain (ds ++ zeros (k + 1 - ds.length)) (zeros 1) := by
  change ds.take (k + 1) ++ zeros (k + 1 - (ds.take (k + 1)).length) ++
    '.' :: (if (ds.drop (k + 1)).isEmpty then ['0'] else ds.drop (k + 1)) = _
  rw [plain, if_neg (digits_zeros 0).1, List.take_of_length_le h, List.drop_of_length_le h]
  rfl

theorem inPlace_plain {ws fs : Text} (hws : Digits ws) (hfs : Digits fs) :
    InPlace (plain ws fs) ∧ written (plain ws fs) = Decimal.value ⟨natOf (ws ++ fs), -fs.length⟩ := by
  rw [written_plain hws.2 hfs.2, value_plain_eq hws.2]
  exact ⟨⟨ws, fs, hws, hfs, rfl⟩, rfl⟩

/-- **Digits in their places** write the number that the first one begins. -/
theorem inPlace_fixed (hd : Digits ds) (e : ℤ) :
    InPlace (fixed ds e) ∧
      written (fixed ds e) = Decimal.value ⟨natOf ds, e + 1 - ds.length⟩ := by
  cases e with
  | negSucc k =>
    obtain ⟨hplace, hwritten⟩ := inPlace_plain (digits_zeros 0) (hd.zeros_append k)
    rw [natOf_zeros_append, natOf_zeros_append, List.length_append, length_zeros] at hwritten
    rw [fixed_negSucc hd, hwritten]
    refine ⟨hplace, congrArg (fun p => Decimal.value ⟨natOf ds, p⟩) ?_⟩
    omega
  | ofNat k =>
    rw [Int.ofNat_eq_natCast]
    rcases Nat.lt_or_ge (k + 1) ds.length with hlt | hle
    · have hws : Digits (ds.take (k + 1)) := by
        refine ⟨fun h => ?_, fun c hc => hd.2 c (List.mem_of_mem_take hc)⟩
        exact (List.take_eq_nil_iff.1 h).elim (Nat.succ_ne_zero k) hd.1
      have hfs : Digits (ds.drop (k + 1)) := by
        refine ⟨fun h => ?_, fun c hc => hd.2 c (List.mem_of_mem_drop hc)⟩
        exact Nat.not_le.2 hlt (List.drop_eq_nil_iff.1 h)
      obtain ⟨hplace, hwritten⟩ := inPlace_plain hws hfs
      rw [List.take_append_drop, List.length_drop] at hwritten
      rw [fixed_of_lt hlt, hwritten]
      refine ⟨hplace, congrArg (fun p => Decimal.value ⟨natOf ds, p⟩) ?_⟩
      omega
    · obtain ⟨hplace, hwritten⟩ :=
        inPlace_plain (hd.append_zeros (k + 1 - ds.length)) (digits_zeros 0)
      rw [natOf_append_zeros, natOf_append_zeros, Decimal.value_tenPow_mul, Decimal.value_tenPow_mul,
        length_zeros] at hwritten
      rw [fixed_of_le hle, hwritten]
      refine ⟨hplace, congrArg (fun p => Decimal.value ⟨natOf ds, p⟩) ?_⟩
      omega

theorem exists_exponentText (e : ℤ) : ∃ s es, exponentText e = s :: es ∧ (s = '+' ∨ s = '-') ∧
    Digits es ∧ 2 ≤ es.length ∧ power ('e' :: s :: es) = e := by
  have hdigits : Digits (digitsOf e.natAbs) :=
    ⟨digitsOf_ne_nil _, fun _ hc => isDigit_of_mem_digitsOf hc⟩
  have hes := hdigits.zeros_append (2 - (digitsOf e.natAbs).length)
  have hlen : 2 ≤ (zeros (2 - (digitsOf e.natAbs).length) ++ digitsOf e.natAbs).length := by
    rw [List.length_append, length_zeros]
    omega
  have hnat : natOf (zeros (2 - (digitsOf e.natAbs).length) ++ digitsOf e.natAbs) = e.natAbs := by
    rw [natOf_zeros_append, natOf_digitsOf]
  unfold exponentText
  dsimp only
  generalize zeros _ ++ digitsOf e.natAbs = es at *
  split
  · refine ⟨'-', es, rfl, Or.inr rfl, hes, hlen, ?_⟩
    change -(natOf es : ℤ) = e
    omega
  · refine ⟨'+', es, rfl, Or.inl rfl, hes, hlen, ?_⟩
    change (natOf es : ℤ) = e
    omega

/-- **Digits with an exponent** write the same number. -/
theorem withExponent_scientific (hd : Digits ds) (e : ℤ) :
    WithExponent (scientific ds e) ∧
      written (scientific ds e) = Decimal.value ⟨natOf ds, e + 1 - ds.length⟩ := by
  obtain ⟨s, es, hes, hs, hdigits, hlen, hpower⟩ := exists_exponentText e
  obtain ⟨d, fs, rfl⟩ := List.exists_cons_of_ne_nil hd.1
  have hd₁ : ∀ c ∈ [d], isDigit c = true := fun c hc =>
    hd.2 c (List.mem_cons.2 (Or.inl (List.mem_singleton.1 hc)))
  have hfs : ∀ c ∈ fs, isDigit c = true := fun c hc => hd.2 c (List.mem_cons_of_mem d hc)
  have htext : scientific (d :: fs) e = plain [d] fs ++ 'e' :: s :: es := by
    rw [scientific, hes]
    cases fs with
    | nil => rfl
    | cons c fs => rfl
  refine ⟨⟨d, fs, s, es, hd₁ d (List.mem_singleton_self d), hfs, hs, hdigits, hlen, htext⟩, ?_⟩
  have hexp : e + 1 - ((d :: fs).length : ℤ) = -(fs.length : ℤ) + e := by
    rw [List.length_cons]
    omega
  rw [htext, written_plain_append hd₁ hfs, hpower, value_plain_eq hd₁, hexp, Decimal.value,
    Decimal.value, tenZpow_add, mul_assoc]
  rfl

/-! ## The text of a magnitude -/

/-- The first figure of the number stands for `10 ^ e`. -/
def FirstFigure (v : ℚ) (e : ℤ) : Prop := 10 ^ e ≤ v ∧ v < 10 ^ (e + 1)

theorem FirstFigure.unique {v : ℚ} {e e' : ℤ} (h : FirstFigure v e) (h' : FirstFigure v e') :
    e = e' := by
  have hten : (1 : ℚ) < 10 := by decide
  have hlt := (zpow_lt_zpow_iff_right₀ hten).1 (h.1.trans_lt h'.2)
  have hlt' := (zpow_lt_zpow_iff_right₀ hten).1 (h'.1.trans_lt h.2)
  omega

theorem firstFigure_value {c : ℕ} (hc : c ≠ 0) (p : ℤ) :
    FirstFigure (Decimal.value ⟨c, p⟩) (p + (digitsOf c).length - 1) := by
  have hbounds := tenZpow_bounds hc le_rfl (lt_add_one _) p
  rwa [FirstFigure, Int.sub_add_cancel]

/-- **The text of a magnitude writes its shortest decimal**, in place or with an exponent according to
where the first figure stands. -/
theorem Magnitude.text_writes (hx : x.significand ≠ 0) :
    written x.text = x.shortest.value ∧ ∃ e, FirstFigure x.shortest.value e ∧
      (-4 ≤ e ∧ e < 16 ∧ InPlace x.text ∨ ¬ (-4 ≤ e ∧ e < 16) ∧ WithExponent x.text) := by
  obtain ⟨k, hk⟩ := isShortest_shortest hx
  have hc : x.shortest.coefficient ≠ 0 := by
    intro h
    have hround := hk.rounds
    rw [Decimal.value, h, Nat.cast_zero, zero_mul] at hround
    exact not_roundsTo_zero hx hround
  rw [text, if_neg hx]
  -- the decimal is made a variable, or its digits would be computed
  obtain ⟨d, hd⟩ : ∃ d, d = x.shortest := ⟨_, rfl⟩
  rw [← hd] at hc ⊢
  dsimp only
  obtain ⟨hdigits, hvalue⟩ := digits_dropFinalZeros hc d.exponent
  have hfirst := firstFigure_value hc d.exponent
  generalize he : d.exponent + (digitsOf d.coefficient).length - 1 = e at *
  rw [show d.exponent + (digitsOf d.coefficient).length = e + 1 by omega] at hvalue
  split
  · next h =>
    obtain ⟨hplace, hwritten⟩ := inPlace_fixed hdigits e
    exact ⟨hwritten.trans hvalue, e, hfirst, Or.inl ⟨h.1, h.2, hplace⟩⟩
  · next h =>
    obtain ⟨hexponent, hwritten⟩ := withExponent_scientific hdigits e
    exact ⟨hwritten.trans hvalue, e, hfirst, Or.inr ⟨h, hexponent⟩⟩

end BudgetLexer
