import BudgetLexer.Binary64.Rounding

/-!
# Floating-point text

A finite value is written with the digits of the shortest decimal that reads back as it. For 1, 2, …
digits the two neighbours of the value on the grid of decimals with so many digits are read back; the
first grid on which one of them gives the value again wins, and there the nearer of the two, or the even
one of two equally near. When the first digit stands for a power of ten from `10 ^ -4` to `10 ^ 15` the
digits stand in their places and there is always a point; otherwise one digit stands before the point,
and an exponent of at least two digits follows.

* `leadingExponent`: the power of ten of a value's first digit.
* `neighbour?`: the neighbour on the grid of a given number of digits that reads back.
* `shortest`: the decimal on the first grid that has one.
* `fixed`, `scientific`: the two layouts of a row of digits.
* `Binary64.text`: the text of a value; `Binary64.mem_text` says of what characters it is made.
-/

namespace BudgetLexer

/-! ## Shortest decimals -/

namespace Magnitude

/-- The power of ten of the first digit. Every magnitude but zero is above `10 ^ -324`, so the digits
of the whole part of the value times `10 ^ 324` tell it. -/
def leadingExponent (x : Magnitude) : Int :=
  ((digitsOf (x.units * tenPow 324 / unitsPerOne)).length : Int) - 325

/-- The value over `10 ^ p`, as a ratio of natural numbers. -/
def scaled (x : Magnitude) (p : Int) : Nat × Nat :=
  match p with
  | .ofNat p => (x.units, unitsPerOne * tenPow p)
  | .negSucc p => (x.units * tenPow (p + 1), unitsPerOne)

/-- Whether a decimal reads back as the magnitude. -/
def readsBack (x : Magnitude) (d : Decimal) : Bool := d.magnitude? == some x

/-- **The decimal with `digits` digits that reads back**: of the value's two neighbours on that grid
the nearer one, the even one of two equally near, and never one that reads back as something else. -/
def neighbour? (x : Magnitude) (digits : Nat) : Option Decimal :=
  let p := x.leadingExponent + 1 - digits
  let (n, d) := x.scaled p
  let below : Decimal := ⟨n / d, p⟩
  let above : Decimal := ⟨n / d + 1, p⟩
  match x.readsBack below, x.readsBack above with
  | true, true => some ⟨divEven n d, p⟩
  | true, false => some below
  | false, true => some above
  | false, false => none

/-- All digits of the value, the last one standing for `10 ^ -1074`. A unit is a whole number of
these. -/
def exact (x : Magnitude) : Decimal := ⟨x.units * (tenPow 1074 / unitsPerOne), -1074⟩

/-- **The shortest decimal that reads back.** The grid of the last number of digits tried reaches
`10 ^ -1074` and so holds the value itself. -/
def shortest (x : Magnitude) : Decimal :=
  ((List.range (x.leadingExponent + 1075).toNat).findSome? fun i => x.neighbour? (i + 1)).getD x.exact

end Magnitude

/-! ## Layouts -/

/-- The digits without the zeros at the end. -/
def dropFinalZeros (ds : Text) : Text := (ds.reverse.dropWhile (· == '0')).reverse

/-- Digits in their places, the first one standing for `10 ^ e`, with at least one digit on either
side of the point. -/
def fixed (ds : Text) (e : Int) : Text :=
  match e with
  | .negSucc k => '0' :: '.' :: (zeros k ++ ds)
  | .ofNat k =>
    let whole := ds.take (k + 1)
    let fraction := ds.drop (k + 1)
    whole ++ zeros (k + 1 - whole.length) ++ '.' :: (if fraction.isEmpty then ['0'] else fraction)

/-- The text of an exponent: its sign and at least two digits. -/
def exponentText (e : Int) : Text :=
  let ds := digitsOf e.natAbs
  (if e < 0 then '-' else '+') :: (zeros (2 - ds.length) ++ ds)

/-- One digit, the others after a point, and the power of ten of the first. -/
def scientific (ds : Text) (e : Int) : Text :=
  ds.take 1 ++ (if (ds.drop 1).isEmpty then [] else '.' :: ds.drop 1) ++ 'e' :: exponentText e

/-- The text of a magnitude. -/
def Magnitude.text (x : Magnitude) : Text :=
  if x.significand = 0 then "0.0".toList
  else
    let d := x.shortest
    let ds := digitsOf d.coefficient
    let e := d.exponent + ds.length - 1
    let ds := dropFinalZeros ds
    if -4 ≤ e ∧ e < 16 then fixed ds e else scientific ds e

/-- **The text of a floating-point value.** -/
def Binary64.text : Binary64 → Text
  | .finite false x => x.text
  | .finite true x => '-' :: x.text
  | .infinite false => "inf".toList
  | .infinite true => "-inf".toList
  | .notANumber => "nan".toList

/-! ## Characters -/

/-- The characters that stand beside the digits of a value. -/
def figureMarks : Text := ['.', 'e', '+', '-']

/-- A digit, or a character that stands beside the digits. -/
def IsFigure (c : Char) : Prop := isDigit c = true ∨ c ∈ figureMarks

variable {ds : Text} {c : Char}

theorem isFigure_of_mem_zeros {n : Nat} (h : c ∈ zeros n) : IsFigure c :=
  Or.inl (List.eq_of_mem_replicate h ▸ by decide)

theorem mem_of_mem_dropFinalZeros (h : c ∈ dropFinalZeros ds) : c ∈ ds := by
  have h' := (List.dropWhile_sublist _).subset (List.mem_reverse.1 h)
  exact List.mem_reverse.1 h'

theorem isFigure_of_mem_fixed (hd : ∀ d ∈ ds, IsFigure d) (e : Int) (h : c ∈ fixed ds e) :
    IsFigure c := by
  have hzero : IsFigure '0' := Or.inl (by decide)
  have hpoint : IsFigure '.' := Or.inr (by decide)
  unfold fixed at h
  split at h
  · rcases List.mem_cons.1 h with rfl | h
    · exact hzero
    rcases List.mem_cons.1 h with rfl | h
    · exact hpoint
    · exact (List.mem_append.1 h).elim isFigure_of_mem_zeros (hd c)
  · rcases List.mem_append.1 h with h | h
    · exact (List.mem_append.1 h).elim (fun h => hd c (List.mem_of_mem_take h))
        isFigure_of_mem_zeros
    rcases List.mem_cons.1 h with rfl | h
    · exact hpoint
    split at h
    · exact List.mem_singleton.1 h ▸ hzero
    · exact hd c (List.mem_of_mem_drop h)

theorem isFigure_of_mem_exponentText {e : Int} (h : c ∈ exponentText e) : IsFigure c := by
  rcases List.mem_cons.1 h with rfl | h
  · split
    · exact Or.inr (by decide)
    · exact Or.inr (by decide)
  · exact (List.mem_append.1 h).elim isFigure_of_mem_zeros fun h =>
      Or.inl (isDigit_of_mem_digitsOf h)

theorem isFigure_of_mem_scientific (hd : ∀ d ∈ ds, IsFigure d) (e : Int)
    (h : c ∈ scientific ds e) : IsFigure c := by
  rcases List.mem_append.1 h with h | h
  · rcases List.mem_append.1 h with h | h
    · exact hd c (List.mem_of_mem_take h)
    split at h
    · cases h
    rcases List.mem_cons.1 h with rfl | h
    · exact Or.inr (by decide)
    · exact hd c (List.mem_of_mem_drop h)
  · rcases List.mem_cons.1 h with rfl | h
    · exact Or.inr (by decide)
    · exact isFigure_of_mem_exponentText h

theorem Magnitude.isFigure_of_mem_text {x : Magnitude} (h : c ∈ x.text) : IsFigure c := by
  unfold Magnitude.text at h
  split at h
  · rcases List.mem_append.1 (show c ∈ zeros 1 ++ '.' :: zeros 1 from h) with h | h
    · exact isFigure_of_mem_zeros h
    rcases List.mem_cons.1 h with rfl | h
    · exact Or.inr (by decide)
    · exact isFigure_of_mem_zeros h
  · have hd : ∀ d ∈ dropFinalZeros (digitsOf x.shortest.coefficient), IsFigure d := fun d hd =>
      Or.inl (isDigit_of_mem_digitsOf (mem_of_mem_dropFinalZeros hd))
    dsimp only at h
    split at h
    · exact isFigure_of_mem_fixed hd _ h
    · exact isFigure_of_mem_scientific hd _ h

/-- **The characters of a value**: those of its figures, or of a name. -/
theorem Binary64.mem_text {x : Binary64} (h : c ∈ x.text) :
    IsFigure c ∨ c ∈ "-inf".toList ∨ c ∈ "nan".toList := by
  cases x with
  | finite negative x =>
    cases negative with
    | false => exact Or.inl (x.isFigure_of_mem_text h)
    | true =>
      rcases List.mem_cons.1 h with rfl | h
      · exact Or.inl (Or.inr (by decide))
      · exact Or.inl (x.isFigure_of_mem_text h)
  | infinite negative =>
    cases negative with
    | false => exact Or.inr (Or.inl (List.mem_cons_of_mem _ h))
    | true => exact Or.inr (Or.inl h)
  | notANumber => exact Or.inr (Or.inr h)

end BudgetLexer
