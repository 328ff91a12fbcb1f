import BudgetLexer.Proofs.Extent
import BudgetLexer.Scanner.Request
import Mathlib.Order.Bounds.Basic

/-!
# Lexemes read from any state

The calls that read on in a block comment, a string, a word or a number may be made in any state: the
cursor may be past the end of the source, and the lexeme may begin before it, after it or nowhere near.
Each call is told here whole, by the first position that stops it.

* `FirstFrom p i j`: the position `j` is the first one from `i` on with the property `p`.
* `CommentEnds`, `commentEnds_blockComment`: the end of a block comment, found step by step.
* `firstFrom_quote_or_end`: where the body of a string stops.
* **`lexeme_calls_from_any_state`**: what the four calls answer and leave.
-/

namespace BudgetLexer

/-- **The first position** from `i` on with the property `p`. -/
def FirstFrom (p : Nat → Prop) (i j : Nat) : Prop := IsLeast {k | i ≤ k ∧ p k} j

/-- A star and a slash stand at the position. -/
def ClosesComment (t : Text) (k : Nat) : Prop := Text.slice t k (k + 2) = ['*', '/']

/-- **The block comment that is open at position `i` ends** after the first star and slash from there
on, or at the end of the text. -/
inductive CommentEnds (t : Text) (i : Nat) : Nat → Prop
  | closed {j} (h : FirstFrom (ClosesComment t) i j) : CommentEnds t i (j + 2)
  | unclosed (h : ∀ k, i ≤ k → ¬ ClosesComment t k) : CommentEnds t i (max i t.length)

variable {p : Nat → Prop} {t r : Text} {c : Char} {i j e : Nat}

/-! ## First positions -/

theorem firstFrom_self (h : p i) : FirstFrom p i i := ⟨⟨Nat.le_refl i, h⟩, fun _ hk => hk.1⟩

theorem FirstFrom.of_succ (h : FirstFrom p (i + 1) j) (hi : ¬ p i) : FirstFrom p i j := by
  obtain ⟨⟨hle, hj⟩, hleast⟩ := h
  refine ⟨⟨Nat.le_of_succ_le hle, hj⟩, fun k hk => hleast ⟨?_, hk.2⟩⟩
  have hne : i ≠ k := by
    rintro rfl
    exact hi hk.2
  exact Nat.lt_of_le_of_ne hk.1 hne

/-! ## Block comments -/

theorem closesComment_iff (e : t.drop i = c :: r) :
    ClosesComment t i ↔ c = '*' ∧ r.head? = some '/' := by
  rw [ClosesComment, Text.slice, e, Nat.add_sub_cancel_left]
  cases r with
  | nil => simp
  | cons d r => simp

theorem CommentEnds.of_succ (h : CommentEnds t (i + 1) e) (hi : i < t.length)
    (hc : ¬ ClosesComment t i) : CommentEnds t i e := by
  cases h with
  | closed h => exact .closed (h.of_succ hc)
  | unclosed h =>
    have hmax : max (i + 1) t.length = max i t.length := by omega
    rw [hmax]
    refine .unclosed fun k hk => ?_
    rcases Nat.eq_or_lt_of_le hk with rfl | hk
    · exact hc
    · exact h k hk

/-- **The extent of a block comment leads to its end.** -/
theorem commentEnds_blockComment (t : Text) (i : Nat) :
    CommentEnds t i (i + Extent.blockComment (t.drop i)) := by
  generalize e : t.drop i = u
  induction u generalizing i with
  | nil =>
    have hlen : t.length ≤ i := List.drop_eq_nil_iff.1 e
    have hend : i + Extent.blockComment [] = max i t.length := by
      rw [Nat.max_eq_left hlen]
      rfl
    rw [hend]
    refine .unclosed fun k hk h => ?_
    rw [ClosesComment, Text.slice, List.drop_eq_nil_of_le (Nat.le_trans hlen hk),
      List.take_nil] at h
    cases h
  | cons c r ih =>
    have hlen : i < t.length := by
      refine Nat.lt_of_not_le fun h => ?_
      rw [List.drop_eq_nil_of_le h] at e
      cases e
    have hr : t.drop (i + 1) = r := by
      rw [← List.drop_drop, e]
      rfl
    rw [Extent.blockComment]
    split
    · next h => exact .closed (firstFrom_self ((closesComment_iff e).2 h))
    · next h =>
      rw [Nat.add_comm _ 1, ← Nat.add_assoc]
      exact (ih (i + 1) hr).of_succ hlen (mt (closesComment_iff e).1 h)

/-! ## Strings -/

theorem Text.slice_to_end (t : Text) (i : Nat) : slice t i (max i t.length) = t.drop i := by
  rw [slice, List.take_of_length_le]
  rw [List.length_drop]
  omega

/-- **The body of a string stops at the first quote**, or at the end of the text if there is none. -/
theorem firstFrom_quote_or_end (h : RunEnds (· ≠ '"') t i j) :
    FirstFrom (fun k => t[k]? = some '"') i j ∨
      (∀ k, i ≤ k → t[k]? ≠ some '"') ∧ j = max i t.length := by
  -- no quote stands where the run goes
  have hrun : ∀ k, i ≤ k → k < j → t[k]? ≠ some '"' := by
    intro k hik hkj hk
    obtain ⟨c, hc, hp⟩ := h.run k hik hkj
    obtain rfl := Option.some.inj (hk.symm.trans hc)
    exact absurd hp (by decide)
  cases hj : t[j]? with
  | some c =>
    have hc : c = '"' := by simpa using h.stop c hj
    refine Or.inl ⟨⟨h.le, hc ▸ hj⟩, fun k hk => ?_⟩
    exact Nat.le_of_not_lt fun hlt => hrun k hk.1 hlt hk.2
  | none =>
    have hlen : t.length ≤ j := List.getElem?_eq_none_iff.1 hj
    refine Or.inr ⟨fun k hik hk => ?_, ?_⟩
    · obtain ⟨hlt, -⟩ := List.getElem?_eq_some_iff.1 hk
      exact hrun k hik (Nat.lt_of_lt_of_le hlt hlen) hk
    · -- the last character of the run is in the text, so the run goes no further than the text
      refine Nat.le_antisymm ?_ (Nat.max_le.2 ⟨h.le, hlen⟩)
      rcases Nat.eq_or_lt_of_le h.le with rfl | hlt
      · exact Nat.le_max_left _ _
      · obtain ⟨c, hc, -⟩ := h.run (j - 1) (by omega) (by omega)
        obtain ⟨hlast, -⟩ := List.getElem?_eq_some_iff.1 hc
        omega

namespace Scanner

variable {s : Scanner}

theorem pass_eq (s : Scanner) (n : Nat) :
    s.pass n = { s with
      current := s.current + n
      line := s.line + Text.newlines (Text.slice s.source s.current (s.current + n)) } := by
  rw [pass, Text.slice, Nat.add_sub_cancel_left]
  rfl

theorem runEnds_stringBody (s : Scanner) :
    RunEnds (· ≠ '"') s.source s.current (s.current + Extent.stringBody s.rest) :=
  runEnds_iff.2 rfl

theorem string_of_quote {n : Nat} (hn : Extent.stringBody s.rest = n)
    (h : s.source[s.current + n]? = some '"') :
    s.string = { s with
      current := s.current + n + 1
      line := s.line + Text.newlines (Text.slice s.source s.current (s.current + n))
      tokens := s.tokens ++ [⟨.string, Text.slice s.source s.start (s.current + n + 1),
        .text (Text.slice s.source (s.start + 1) (s.current + n)), s.startLine⟩] } := by
  obtain ⟨hlt, -⟩ := List.getElem?_eq_some_iff.1 h
  have hend : (s.pass n).isAtEnd = false := decide_eq_false (Nat.not_le.2 hlt)
  rw [string, hn]
  dsimp only
  rw [hend, if_neg Bool.false_ne_true, pass_eq]
  rfl

theorem string_of_end {n : Nat} (hn : Extent.stringBody s.rest = n)
    (h : s.current + n = max s.current s.source.length) :
    s.string = { s with
      current := max s.current s.source.length
      line := s.line + Text.newlines (s.source.drop s.current)
      reporter := s.reporter.report
        (.onLine (s.line + Text.newlines (s.source.drop s.current)) "Unterminated string.".toList) } := by
  have hlen : s.source.length ≤ s.current + n := h ▸ Nat.le_max_right _ _
  have hend : (s.pass n).isAtEnd = true := decide_eq_true hlen
  rw [string, hn]
  dsimp only
  rw [hend, if_pos rfl, pass_eq, h, Text.slice_to_end]
  rfl

/-! ## Numbers -/

theorem number_eq {e : Nat} (he : NumberEnds s.source s.current e) :
    (∃ x, Numeral.read? (Text.slice s.source s.start e) = some x ∧
        s.number = .ok () { s with
          current := e
          tokens := s.tokens ++
            [⟨.number, Text.slice s.source s.start e, .float x, s.startLine⟩] }) ∨
      Numeral.read? (Text.slice s.source s.start e) = none ∧
        s.number = .fail (.notANumeral (Text.slice s.source s.start e)) { s with current := e } := by
  obtain rfl := numberEnds_iff.1 he
  cases hr : Numeral.read? (s.skip (Extent.number s.rest)).lexeme with
  | some x =>
    refine Or.inl ⟨x, hr, ?_⟩
    rw [number]
    simp only [hr]
    rfl
  | none =>
    refine Or.inr ⟨hr, ?_⟩
    rw [number]
    simp only [hr]
    rfl

end Scanner

/-! ## The law -/

open Scanner in
/-- **The four calls that read on, from any state.** A block comment is passed over to its end, and the
newlines of what was passed are counted. A string is read to the first quote, with a token for all from
the start of the lexeme on; if there is no quote, it is dropped and reported on the line of the end. A
word and a number are read to the end of their run, with a token for all from the start of the lexeme
on; the number fails if this is no numeral, and then only the cursor has moved. -/
theorem lexeme_calls_from_any_state (s : Scanner) :
    (∃ e, CommentEnds s.source s.current e ∧
      s.perform .blockComment = .ok .none { s with
        current := e
        line := s.line + Text.newlines (Text.slice s.source s.current e) }) ∧
    ((∃ j, FirstFrom (fun k => s.source[k]? = some '"') s.current j ∧
        s.perform .string = .ok .none { s with
          current := j + 1
          line := s.line + Text.newlines (Text.slice s.source s.current j)
          tokens := s.tokens ++ [⟨.string, Text.slice s.source s.start (j + 1),
            .text (Text.slice s.source (s.start + 1) j), s.startLine⟩] }) ∨
      (∀ k, s.current ≤ k → s.source[k]? ≠ some '"') ∧
        s.perform .string = .ok .none { s with
          current := max s.current s.source.length
          line := s.line + Text.newlines (s.source.drop s.current)
          reporter := s.reporter.report
            (.onLine (s.line + Text.newlines (s.source.drop s.current))
              "Unterminated string.".toList) }) ∧
    (∃ e, RunEnds isWord s.source s.current e ∧
      s.perform .identifier = .ok .none { s with
        current := e
        tokens := s.tokens ++ [⟨(keyword? (Text.slice s.source s.start e)).getD .identifier,
          Text.slice s.source s.start e, .none, s.startLine⟩] }) ∧
    ∃ e, NumberEnds s.source s.current e ∧
      ((∃ x, Numeral.read? (Text.slice s.source s.start e) = some x ∧
          s.perform .number = .ok .none { s with
            current := e
            tokens := s.tokens ++
              [⟨.number, Text.slice s.source s.start e, .float x, s.startLine⟩] }) ∨
        Numeral.read? (Text.slice s.source s.start e) = none ∧
          s.perform .number =
            .fail (.notANumeral (Text.slice s.source s.start e)) { s with current := e }) := by
  refine ⟨?_, ?_, ?_, ?_⟩
  · refine ⟨_, commentEnds_blockComment s.source s.current, ?_⟩
    rw [perform, blockComment, pass_eq]
    rfl
  · rcases firstFrom_quote_or_end s.runEnds_stringBody with h | ⟨h, hend⟩
    · refine Or.inl ⟨_, h, ?_⟩
      rw [perform, string_of_quote rfl h.1.2]
    · refine Or.inr ⟨h, ?_⟩
      rw [perform, string_of_end rfl hend]
  · exact ⟨_, runEnds_iff.2 rfl, rfl⟩
  · have he := numberEnds_number s.source s.current
    refine ⟨_, he, ?_⟩
    rcases number_eq he with ⟨x, hx, hn⟩ | ⟨hx, hn⟩
    · refine Or.inl ⟨x, hx, ?_⟩
      rw [perform, hn]
      rfl
    · refine Or.inr ⟨hx, ?_⟩
      rw [perform, hn]
      rfl

/-- The star that opens a comment does not close it. -/
example :
    let s : Scanner := { source := ['/', '*', '/', '\n'], current := 2 }
    s.blockComment = { s with current := 4, line := 2 } := rfl

end BudgetLexer
