import BudgetLexer.Text

/-!
# Digits and powers

Numbers in decimal digits, and the powers that the places of digits stand for. Numerals may be written
with the decimal digits of any script too; in each script the ten digits follow one another, so the code
point of its zero tells them all.

* `twoPow`, `tenPow`: the powers of two and of ten.
* `digitsOf`, `natOf`: writing a natural number and reading it; `natOf_digitsOf` says that reading
  undoes writing.
* `integerText`: the text of an integer.
* `scriptZeros`, `asciiDigit`: the zeros of the scripts other than ASCII, as of Unicode 14, and the ASCII
  digit of the same value.
-/

namespace BudgetLexer

/-! ## Powers -/

/-- A power of two. -/
def twoPow (n : Nat) : Nat := Nat.pow 2 n

/-- A power of ten. -/
def tenPow (n : Nat) : Nat := Nat.pow 10 n

theorem twoPow_pos (n : Nat) : 0 < twoPow n := Nat.two_pow_pos n

theorem tenPow_pos (n : Nat) : 0 < tenPow n := Nat.pow_pos (by decide)

theorem twoPow_add (m n : Nat) : twoPow (m + n) = twoPow m * twoPow n := Nat.pow_add 2 m n

theorem tenPow_add (m n : Nat) : tenPow (m + n) = tenPow m * tenPow n := Nat.pow_add 10 m n

theorem twoPow_le_twoPow {m n : Nat} (h : m ≤ n) : twoPow m ≤ twoPow n :=
  Nat.pow_le_pow_right (by decide) h

/-! ## Digits of numbers -/

/-- The decimal digits of a natural number, first digit first. -/
def digitsOf (n : Nat) : Text := Nat.toDigits 10 n

/-- The natural number that a row of decimal digits writes; none at all write zero. -/
def natOf (ds : Text) : Nat := Nat.ofDigitChars 10 ds 0

/-- A row of zeros. -/
def zeros (n : Nat) : Text := List.replicate n '0'

/-- The decimal text of an integer. -/
def integerText (n : Int) : Text := if n < 0 then '-' :: digitsOf n.natAbs else digitsOf n.natAbs

@[simp] theorem natOf_digitsOf (n : Nat) : natOf (digitsOf n) = n := Nat.ofDigitChars_ten_toDigits

theorem digitsOf_ne_nil (n : Nat) : digitsOf n ≠ [] :=
  List.ne_nil_of_length_pos Nat.length_toDigits_pos

theorem isDigit_of_mem_digitsOf {n : Nat} {c : Char} (h : c ∈ digitsOf n) : isDigit c = true := by
  have h' := Nat.isDigit_of_mem_toDigits (by decide) (by decide) h
  simpa [Char.isDigit, isDigit, Char.le_def, UInt32.le_iff_toNat_le] using h'

/-- Zeros in front do not change the number. -/
theorem natOf_zeros_append (n : Nat) (ds : Text) : natOf (zeros n ++ ds) = natOf ds := by
  simp [natOf, zeros, Nat.ofDigitChars_append, Nat.ofDigitChars_replicate_zero]

/-- Each zero behind multiplies the number by ten. -/
theorem natOf_append_zeros (ds : Text) (n : Nat) : natOf (ds ++ zeros n) = tenPow n * natOf ds := by
  simp [tenPow, natOf, zeros, Nat.ofDigitChars_append, Nat.ofDigitChars_replicate_zero]

/-! ## Digits of scripts -/

/-- The code points of the zeros outside ASCII. -/
def scriptZeros : List Nat :=
  [1632, 1776, 1984, 2406, 2534, 2662, 2790, 2918, 3046, 3174, 3302, 3430, 3558, 3664, 3792, 3872,
    4160, 4240, 6112, 6160, 6470, 6608, 6784, 6800, 6992, 7088, 7232, 7248, 42528, 43216, 43264,
    43472, 43504, 43600, 44016, 65296, 66720, 68912, 69734, 69872, 69942, 70096, 70384, 70736,
    70864, 71248, 71360, 71472, 71904, 72016, 72784, 73040, 73120, 92768, 92864, 93008, 120782,
    120792, 120802, 120812, 120822, 123200, 123632, 125264, 130032]

/-- The value of a digit outside ASCII. -/
def scriptDigit? (c : Char) : Option Nat :=
  (scriptZeros.find? fun z => z ≤ c.toNat && c.toNat < z + 10).map (c.toNat - ·)

/-- A digit of another script becomes the ASCII digit of its value; all else stays. -/
def asciiDigit (c : Char) : Char :=
  match scriptDigit? c with
  | some v => Nat.digitChar v
  | none => c

theorem scriptDigit?_eq_none {c : Char} (h : c.toNat < 128) : scriptDigit? c = none := by
  have hz : ∀ z ∈ scriptZeros, 128 ≤ z := by decide
  simp only [scriptDigit?, Option.map_eq_none_iff, List.find?_eq_none]
  intro z hm
  have := hz z hm
  simp
  omega

/-- ASCII is left alone. -/
theorem asciiDigit_of_ascii {c : Char} (h : c.toNat < 128) : asciiDigit c = c := by
  simp [asciiDigit, scriptDigit?_eq_none h]

end BudgetLexer
