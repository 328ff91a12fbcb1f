import BudgetLexer.Text

/-!
# Extents

How far the lexemes of the language reach into the text that follows their beginning.

* `Extent.word`, `Extent.number`: the characters of a word, and of a number with its fraction.
* `Extent.line`, `Extent.stringBody`: up to a newline, and up to a quote.
* `Extent.blockComment`: up to and including the first star followed by a slash.
-/

namespace BudgetLexer.Extent

/-- The word characters that the text begins with. -/
def word (t : Text) : Nat := (t.takeWhile isWord).length

/-- The digits that the text begins with. -/
def digits (t : Text) : Nat := (t.takeWhile isDigit).length

/-- The digits that the text begins with, and a fraction after them: a point with at least one
digit. -/
def number (t : Text) : Nat :=
  match t.dropWhile isDigit with
  | '.' :: r => if digits r = 0 then digits t else digits t + 1 + digits r
  | _ => digits t

/-- The characters before the first newline, or all. -/
def line (t : Text) : Nat := (t.takeWhile (· ≠ '\n')).length

/-- The characters before the first quote, or all. -/
def stringBody (t : Text) : Nat := (t.takeWhile (· ≠ '"')).length

/-- The characters up to the end of the first star and slash, or all. -/
def blockComment : Text → Nat
  | [] => 0
  | c :: t => if c = '*' ∧ t.head? = some '/' then 2 else blockComment t + 1

/-! ## What an extent covers -/

theorem take_length_takeWhile (p : Char → Bool) (t : Text) :
    t.take (t.takeWhile p).length = t.takeWhile p := by
  induction t with
  | nil => rfl
  | cons c t ih => by_cases h : p c = true <;> simp [h, ih]

theorem drop_length_takeWhile (p : Char → Bool) (t : Text) :
    t.drop (t.takeWhile p).length = t.dropWhile p := by
  induction t with
  | nil => rfl
  | cons c t ih => by_cases h : p c = true <;> simp [h, ih]

theorem isDigit_of_mem_takeWhile {t : Text} {d : Char} (h : d ∈ t.takeWhile isDigit) :
    isDigit d = true :=
  List.all_eq_true.1 List.all_takeWhile d h

/-! ## No extent passes the end -/

theorem word_le (t : Text) : word t ≤ t.length := (List.takeWhile_sublist _).length_le

theorem digits_le (t : Text) : digits t ≤ t.length := (List.takeWhile_sublist _).length_le

theorem line_le (t : Text) : line t ≤ t.length := (List.takeWhile_sublist _).length_le

theorem stringBody_le (t : Text) : stringBody t ≤ t.length := (List.takeWhile_sublist _).length_le

theorem number_le (t : Text) : number t ≤ t.length := by
  have h := congrArg List.length (List.takeWhile_append_dropWhile (p := isDigit) (l := t))
  have hd := digits_le t
  unfold number
  split
  · next r hr =>
    rw [hr] at h
    rw [List.length_append, List.length_cons] at h
    change digits t + (r.length + 1) = t.length at h
    have := digits_le r
    split <;> omega
  · exact hd

theorem blockComment_le (t : Text) : blockComment t ≤ t.length := by
  induction t with
  | nil => exact Nat.le_refl _
  | cons c t ih =>
    unfold blockComment
    split
    · next h =>
      cases t with
      | nil => simp at h
      | cons d t => simp
    · simpa using ih

end BudgetLexer.Extent
