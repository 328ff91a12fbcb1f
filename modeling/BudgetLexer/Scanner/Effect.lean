import BudgetLexer.Scanner.Scan

/-!
# What a call does to a scanner

A call moves the cursor on, and then finds one thing at most: it adds a token for the lexeme up to the
cursor, or reports one error. This holds in every state.

* `Scanner.Moved s s'`: the cursor has gone on, over as many newlines as were counted or more.
* `Scanner.Effect s s'`: it has, and one thing at most was found there.
* **`effect_scanToken`**: reading a token, comment or blank; the calls that it makes come before it.
-/

namespace BudgetLexer.Scanner

/-- **The cursor has moved on**, not past the end, and nothing else but its line has changed. No more
lines were counted than it has passed. -/
inductive Moved (s : Scanner) : Scanner → Prop
  | mk (n m : Nat) (hn : n ≤ s.rest.length) (hm : m ≤ Text.newlines (s.rest.take n)) :
    Moved s { s with current := s.current + n, line := s.line + m }

/-- **The effect of a call**: a move, and one finding at most. -/
inductive Effect (s : Scanner) : Scanner → Prop
  | move {x} (h : Moved s x) : Effect s x
  | token {x} (h : Moved s x) (kind : Kind) (literal : Value) : Effect s (x.addToken kind literal)
  | report {x} (h : Moved s x) (message : Text) : Effect s (x.report message)

variable {s x s' : Scanner} {c : Char} {n : Nat}

/-! ## Moves -/

theorem Moved.refl (s : Scanner) : Moved s s := .mk 0 0 (Nat.zero_le _) (Nat.zero_le _)

theorem Moved.trans (h : Moved s x) (h' : Moved x s') : Moved s s' := by
  obtain ⟨n, m, hn, hm⟩ := h
  obtain ⟨n', m', hn', hm'⟩ := h'
  have hrest : s.source.drop (s.current + n) = s.rest.drop n := by
    rw [rest, List.drop_drop]
  simp only [rest, hrest, List.length_drop] at hn' hm'
  simp only [Nat.add_assoc]
  refine .mk (n + n') (m + m') ?_ ?_
  · rw [rest, List.length_drop] at hn ⊢
    omega
  · rw [List.take_add, Text.newlines_append]
    exact Nat.add_le_add hm hm'

theorem Effect.of_moved (h : Moved s x) (h' : Effect x s') : Effect s s' := by
  cases h' with
  | move h' => exact .move (h.trans h')
  | token h' k v => exact .token (h.trans h') k v
  | report h' m => exact .report (h.trans h') m

theorem moved_skip (h : n ≤ s.rest.length) : Moved s (s.skip n) := .mk n 0 h (Nat.zero_le _)

theorem moved_pass (h : n ≤ s.rest.length) : Moved s (s.pass n) := .mk n _ h (Nat.le_refl _)

theorem moved_skip_one (h : s.rest ≠ []) : Moved s (s.skip 1) :=
  moved_skip (List.length_pos_iff.2 h)

theorem moved_advance (s : Scanner) : Moved s s.advance.scanner := by
  unfold advance
  split
  · exact .refl s
  · next e => exact moved_skip_one (by simp [e])

theorem moved_accept (s : Scanner) (t : Text) : Moved s (s.accept t).2 := by
  unfold accept
  split
  · exact .refl s
  · next e =>
    split
    · exact moved_skip_one (by simp [e])
    · exact .refl s

theorem moved_blockComment (s : Scanner) : Moved s s.blockComment :=
  moved_pass (Extent.blockComment_le _)

theorem moved_lineComment (s : Scanner) : Moved s s.lineComment := moved_skip (Extent.line_le _)

/-! ## Calls -/

theorem effect_identifier (s : Scanner) : Effect s s.identifier :=
  .token (moved_skip (Extent.word_le _)) _ _

theorem effect_number (s : Scanner) : Effect s s.number.scanner := by
  have h := moved_skip (Extent.number_le s.rest)
  unfold number
  dsimp only
  split
  · exact .token h _ _
  · exact .move h

theorem effect_string (s : Scanner) : Effect s s.string := by
  have h := moved_pass (Extent.stringBody_le s.rest)
  unfold string
  dsimp only
  split
  · exact .report h _
  · next hend =>
    have hne : (s.pass (Extent.stringBody s.rest)).rest ≠ [] := mt (rest_eq_nil_iff _).1 hend
    exact .token (h.trans (moved_skip_one hne)) _ _

theorem effect_operator (s : Scanner) (k l : Kind) : Effect s (s.operator k l) := by
  have h := moved_accept s ['=']
  unfold operator
  split <;> next e => rw [e] at h; exact .token h _ _

theorem effect_slash (s : Scanner) : Effect s s.slash := by
  have h := moved_accept s ['/']
  unfold slash
  split
  · next s₁ e =>
    rw [e] at h
    exact .move (h.trans (moved_lineComment s₁))
  · next s₁ e =>
    rw [e] at h
    have h' := moved_accept s₁ ['*']
    split
    · next s₂ e' =>
      rw [e'] at h'
      exact .move ((h.trans h').trans (moved_blockComment s₂))
    · next e' =>
      rw [e'] at h'
      exact .token (h.trans h') _ _

/-- What a character begins that is no newline. -/
theorem effect_scanFrom (hc : c ≠ '\n') (s : Scanner) : Effect s (s.scanFrom c).scanner := by
  unfold scanFrom
  split
  · exact .token (.refl s) _ _
  · exact effect_operator s _ _
  · rw [if_neg hc]
    repeat' split
    · exact effect_slash s
    · exact .move (.refl s)
    · exact effect_string s
    · exact effect_number s
    · exact effect_identifier s
    · exact .report (.refl s) _

/-- **Reading a token, comment or blank.** A newline is passed and counted at once. -/
theorem effect_scanToken (s : Scanner) : Effect s s.scanToken.scanner := by
  unfold scanToken advance
  cases e : s.rest with
  | nil => exact .move (.refl s)
  | cons c r =>
    by_cases hc : c = '\n'
    · subst hc
      exact .move (.mk 1 1 (by simp [e]) (by simp [e]))
    · exact .of_moved (moved_skip_one (by simp [e])) (effect_scanFrom hc (s.skip 1))

end BudgetLexer.Scanner
