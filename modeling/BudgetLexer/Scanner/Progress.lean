import BudgetLexer.Numeral.Plain
import BudgetLexer.Scanner.Effect

/-!
# Progress of a scan

A scan ends, and nothing in it fails, from whatever state it begins.

* `current_lt_scanToken`: a token that is read takes a character at least.
* `scanToken_mark_ok`: where the lexeme begins at the cursor and the cursor is not at the end, reading
  a token does not fail.
* `scanTokens_ok`: reading all that is left does not fail, and `isAtEnd_scanTokens` says that the
  cursor is at the end then.
-/

namespace BudgetLexer

/-- What the extent of a number covers is a plain numeral, but that the digits before the point may
be missing. -/
theorem Extent.exists_plain (t : Text) : ∃ ds fs, (∀ d ∈ ds, isDigit d = true) ∧
    (∀ d ∈ fs, isDigit d = true) ∧ t.take (Extent.number t) = Numeral.plain ds fs := by
  have whole : t.take (Extent.digits t) = t.takeWhile isDigit := Extent.take_length_takeWhile _ t
  have left : t.drop (Extent.digits t) = t.dropWhile isDigit := Extent.drop_length_takeWhile _ t
  have mem : ∀ (u : Text), ∀ d ∈ u.takeWhile isDigit, isDigit d = true := fun u d =>
    Extent.isDigit_of_mem_takeWhile
  unfold Extent.number
  split
  · next r hr =>
    split
    · exact ⟨_, [], mem t, by simp, by simp [Numeral.plain, whole]⟩
    · next hne =>
      have hr' : r.takeWhile isDigit ≠ [] := fun e => hne (by simp [Extent.digits, e])
      refine ⟨_, _, mem t, mem r, ?_⟩
      rw [Nat.add_assoc, List.take_add, whole, left, hr, Nat.add_comm 1, List.take_succ_cons,
        Numeral.plain, if_neg hr', Extent.digits, Extent.take_length_takeWhile]
  · exact ⟨_, [], mem t, by simp, by simp [Numeral.plain, whole]⟩

namespace Scanner

/-! ## The source stays and the cursor does not go back -/

/-- `s'` has the source of `s`, and its cursor is not before that of `s`. -/
def Onward (s s' : Scanner) : Prop := s'.source = s.source ∧ s.current ≤ s'.current

theorem Effect.onward {s s' : Scanner} (h : Effect s s') : Onward s s' := by
  cases h with
  | move h | token h | report h =>
    obtain ⟨n, m, -, -⟩ := h
    exact ⟨rfl, Nat.le_add_right ..⟩

theorem onward_scanFrom (s : Scanner) (c : Char) : Onward s (s.scanFrom c).scanner := by
  by_cases hc : c = '\n'
  · subst hc
    exact ⟨rfl, Nat.le_refl _⟩
  · exact (effect_scanFrom hc s).onward

/-! ## Reading one token -/

theorem scanToken_of_rest {s : Scanner} {c : Char} {r : Text} (h : s.rest = c :: r) :
    s.scanToken = (s.skip 1).scanFrom c := by
  unfold scanToken advance
  rw [h]
  rfl

theorem scanToken_of_isAtEnd {s : Scanner} (h : s.isAtEnd = true) :
    s.scanToken = .fail .pastEnd s := by
  unfold scanToken advance
  rw [s.rest_eq_nil_iff.2 h]
  rfl

theorem exists_rest {s : Scanner} (h : s.isAtEnd = false) : ∃ c r, s.rest = c :: r := by
  cases e : s.rest with
  | nil => simp [(s.rest_eq_nil_iff.1 e)] at h
  | cons c r => exact ⟨c, r, rfl⟩

/-- **A token that is read takes a character at least.** -/
theorem current_lt_scanToken {s : Scanner} (h : s.isAtEnd = false) :
    s.scanToken.scanner.source = s.source ∧ s.current < s.scanToken.scanner.current := by
  obtain ⟨c, r, e⟩ := exists_rest h
  rw [scanToken_of_rest e]
  have := onward_scanFrom (s.skip 1) c
  exact ⟨this.1, Nat.lt_of_succ_le this.2⟩

/-- The lexeme of a number that is read from its first digit on. -/
theorem lexeme_skip_mark {s : Scanner} {c : Char} {r : Text} (h : s.rest = c :: r) (n : Nat) :
    ((s.mark.skip 1).skip n).lexeme = c :: r.take n := by
  have e : s.current + 1 + n - s.current = n + 1 := by omega
  simp only [lexeme, Text.slice, skip, mark, e]
  rw [show s.source.drop s.current = c :: r from h, List.take_succ_cons]

theorem number_mark_ok {s : Scanner} {c : Char} {r : Text} (h : s.rest = c :: r)
    (hc : isDigit c = true) : (s.mark.skip 1).number.result = .ok () := by
  have hr : (s.mark.skip 1).rest = r := by
    rw [rest_skip]
    simp [show s.mark.rest = c :: r from h]
  obtain ⟨ds, fs, hd, hf, e⟩ := Extent.exists_plain r
  have hread : Numeral.read? (Numeral.plain (c :: ds) fs) = _ :=
    Numeral.read?_plain (by simp) (by simpa [hc] using hd) hf
  have hl : ((s.mark.skip 1).skip (Extent.number r)).lexeme = Numeral.plain (c :: ds) fs := by
    rw [lexeme_skip_mark h, e]
    rfl
  unfold number
  simp only [hr, hl, hread]
  rfl

/-- **Reading a token from its first character on does not fail.** -/
theorem scanToken_mark_ok {s : Scanner} (h : s.isAtEnd = false) :
    s.mark.scanToken.result = .ok () := by
  obtain ⟨c, r, e⟩ := exists_rest h
  rw [scanToken_of_rest (show s.mark.rest = c :: r from e)]
  unfold scanFrom
  repeat' split
  all_goals first | rfl | exact number_mark_ok e (by assumption)

/-! ## Reading all that is left -/

theorem scanLoop_ok (n : Nat) (s : Scanner) : (scanLoop n s).result = .ok () := by
  induction n generalizing s with
  | zero => rfl
  | succ n ih =>
    unfold scanLoop
    split
    · rfl
    · next h =>
      have hok := scanToken_mark_ok (by simpa using h : s.isAtEnd = false)
      split
      · exact ih _
      · next e => rw [e] at hok; cases hok

theorem isAtEnd_scanLoop {n : Nat} {s : Scanner} (h : s.rest.length ≤ n) :
    (scanLoop n s).scanner.isAtEnd = true := by
  induction n generalizing s with
  | zero => exact s.rest_eq_nil_iff.1 (List.length_eq_zero_iff.1 (Nat.le_zero.1 h))
  | succ n ih =>
    unfold scanLoop
    split
    · assumption
    · next h' =>
      have hend : s.isAtEnd = false := by simpa using h'
      have hok := scanToken_mark_ok hend
      have hlt := current_lt_scanToken (s := s.mark) hend
      split
      · next s' e =>
        rw [e] at hlt
        refine ih ?_
        have hc : s.current < s'.current := hlt.2
        have hs : s'.source = s.source := hlt.1
        rw [length_rest] at h ⊢
        rw [hs]
        omega
      · next e => rw [e] at hok; cases hok

theorem scanTokens_eq (s : Scanner) :
    s.scanTokens = .ok (scanLoop s.rest.length s).scanner.addEnd.tokens.length
      (scanLoop s.rest.length s).scanner.addEnd := by
  have h := scanLoop_ok s.rest.length s
  unfold scanTokens
  split
  · next e => rw [e]
  · next e => rw [e] at h; cases h

/-- **Reading all that is left does not fail**, and the answer is the number of tokens held then. -/
theorem scanTokens_ok (s : Scanner) :
    s.scanTokens.result = .ok s.scanTokens.scanner.tokens.length := by
  rw [scanTokens_eq]
  rfl

/-- **When all is read, the cursor is at the end.** -/
theorem isAtEnd_scanTokens (s : Scanner) : s.scanTokens.scanner.isAtEnd = true := by
  rw [scanTokens_eq]
  exact isAtEnd_scanLoop (Nat.le_refl _)

end Scanner

end BudgetLexer
