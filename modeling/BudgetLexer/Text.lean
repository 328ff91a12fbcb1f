/-!
# Text

A text is the list of its code points, and a position in it counts code points.

* `slice s i j`: the part of `s` between two positions; positions past the end are cut down to it.
* `newlines s`: the number of newline characters of `s`.
* `le`, `between`: the order of texts by code points, and the texts between two others.
* `isLetter`, `isDigit`, `isWord`: the classes of characters, all ASCII. `Text.isLetter`, `Text.isDigit`
  and `Text.isWord` ask the same bounds of a whole text; the two agree on texts of one character.
-/

namespace BudgetLexer

/-- **A text**: its code points in order. -/
abbrev Text := List Char

namespace Text

/-- The part of `s` from position `i` up to, and not including, position `j`. -/
def slice (s : Text) (i j : Nat) : Text := (s.drop i).take (j - i)

/-- The number of newline characters of `s`. -/
def newlines (s : Text) : Nat := s.count '\n'

/-- The order by code points. A text comes before every longer text that begins with it. -/
def le : Text → Text → Bool
  | [], _ => true
  | _ :: _, [] => false
  | c :: s, d :: t => c.toNat < d.toNat || (c == d && le s t)

/-- `t` is at least `lo` and at most `hi` in the order by code points. -/
def between (lo hi t : Text) : Bool := le lo t && le t hi

/-! ## Slices -/

theorem slice_eq_nil {s : Text} {i j : Nat} (h : j ≤ i) : slice s i j = [] := by
  simp [slice, Nat.sub_eq_zero_of_le h]

theorem slice_append {s : Text} {i j k : Nat} (hij : i ≤ j) (hjk : j ≤ k) :
    slice s i j ++ slice s j k = slice s i k := by
  obtain ⟨a, rfl⟩ := Nat.exists_eq_add_of_le hij
  obtain ⟨b, rfl⟩ := Nat.exists_eq_add_of_le hjk
  have e₁ : i + a - i = a := by omega
  have e₂ : i + a + b - (i + a) = b := by omega
  have e₃ : i + a + b - i = a + b := by omega
  simp only [slice, e₁, e₂, e₃, List.take_add, List.drop_drop]

/-! ## Newlines -/

@[simp] theorem newlines_nil : newlines [] = 0 := rfl

@[simp] theorem newlines_cons (c : Char) (s : Text) :
    newlines (c :: s) = newlines s + if c = '\n' then 1 else 0 := by
  simp [newlines, List.count_cons]

@[simp] theorem newlines_append (s t : Text) : newlines (s ++ t) = newlines s + newlines t := by
  simp [newlines]

end Text

/-! ## Character classes -/

/-- An ASCII letter or the underscore. -/
def isLetter (c : Char) : Bool := ('a' ≤ c && c ≤ 'z') || ('A' ≤ c && c ≤ 'Z') || c == '_'

/-- An ASCII digit. -/
def isDigit (c : Char) : Bool := '0' ≤ c && c ≤ '9'

/-- A character that continues a word. -/
def isWord (c : Char) : Bool := isLetter c || isDigit c

namespace Text

/-- A text between `a` and `z` or between `A` and `Z`, or the underscore alone. -/
def isLetter (t : Text) : Bool := between ['a'] ['z'] t || between ['A'] ['Z'] t || t == ['_']

/-- A text between `0` and `9`. -/
def isDigit (t : Text) : Bool := between ['0'] ['9'] t

/-- A text in one of the two classes. -/
def isWord (t : Text) : Bool := isLetter t || isDigit t

/-! ## Texts of one character -/

theorem le_singleton (a b : Char) : le [a] [b] = decide (a ≤ b) := by
  have h : (a.toNat < b.toNat ∨ a = b) ↔ a ≤ b := by
    rw [Char.le_def, UInt32.le_iff_toNat_le, ← Char.toNat_inj]
    exact Nat.le_iff_lt_or_eq.symm
  simp [le, ← h, ← Bool.beq_eq_decide_eq]

theorem between_singleton (a b c : Char) : between [a] [b] [c] = (a ≤ c && c ≤ b) := by
  simp only [between, le_singleton]

theorem isLetter_singleton (c : Char) : isLetter [c] = BudgetLexer.isLetter c := by
  simp [isLetter, BudgetLexer.isLetter, between_singleton]

theorem isDigit_singleton (c : Char) : isDigit [c] = BudgetLexer.isDigit c :=
  between_singleton '0' '9' c

theorem isWord_singleton (c : Char) : isWord [c] = BudgetLexer.isWord c := by
  simp [isWord, BudgetLexer.isWord, isLetter_singleton, isDigit_singleton]

end Text

end BudgetLexer
