import BudgetLexer.Proofs.Run
import BudgetLexer.Scanner.Request

/-!
# Lines

The line of the cursor is one more than the newlines before it, at the beginning of every turn and at
the end of a scan: a newline is counted once, whether it stands alone, ends a line comment, or is in a
block comment or a string, closed or not.

* `Text.lineAt`: the line of a position; `Scanner.Counted`: the cursor's line is that of its position.
* `Counted.consume`, `Counted.of_mem_before`: a turn and a whole scan keep it so.
* **`lines_of_scan`**: the lines of tokens and diagnostics.
-/

namespace BudgetLexer

/-- The line of a position in a text. Lines are counted from 1. -/
def Text.lineAt (s : Text) (i : Nat) : Nat := 1 + newlines (s.take i)

namespace Scanner

variable {s x : Scanner} {g : Segment} {gs : List Segment} {rest t : Text}

/-- The line of the cursor counts the newlines before it. -/
def Counted (s : Scanner) : Prop := s.line = s.source.lineAt s.current

/-! ## What a turn adds -/

theorem newTokens_consume (s : Scanner) (g : Segment) :
    s.newTokens (s.consume g) = (g.token? s.line).toList := List.drop_left

theorem newDiagnostics_consume (s : Scanner) (g : Segment) :
    s.newDiagnostics (s.consume g) = (g.diagnostic? s.line).toList := by
  rw [newDiagnostics, consume, Reporter.diagnostics_reportAll, List.drop_left]

theorem tokensOf_eq_flatMap (h : Segmentation t gs) (e : s.rest = t) :
    tokensOf s.line gs = ((s.before gs).flatMap fun x => x.newTokens x.turn) ++
      [⟨.eof, [], .none, s.line + Text.newlines t⟩] := by
  induction h generalizing s with
  | nil => rfl
  | @cons g rest gs hg _ ih =>
    have hl : s.line + Text.newlines g.text = (s.consume g).line := rfl
    rw [tokensOf, before, List.flatMap_cons, turn_eq_consume hg e, newTokens_consume, hl,
      ih (rest_consume e), List.append_assoc, ← hl, Text.newlines_append, Nat.add_assoc]

theorem diagnosticsOf_eq_flatMap (h : Segmentation t gs) (e : s.rest = t) :
    diagnosticsOf s.line gs = (s.before gs).flatMap fun x => x.newDiagnostics x.turn := by
  induction h generalizing s with
  | nil => rfl
  | @cons g rest gs hg _ ih =>
    have hl : s.line + Text.newlines g.text = (s.consume g).line := rfl
    rw [diagnosticsOf, before, List.flatMap_cons, turn_eq_consume hg e, newDiagnostics_consume, hl,
      ih (rest_consume e)]

/-! ## Counting -/

theorem take_consume (e : s.rest = g.text ++ rest) :
    (s.consume g).source.take (s.consume g).current = s.source.take s.current ++ g.text := by
  change s.source.take (s.current + g.text.length) = _
  rw [List.take_add, show s.source.drop s.current = g.text ++ rest from e, List.take_left]

theorem Counted.consume (h : s.Counted) (e : s.rest = g.text ++ rest) : (s.consume g).Counted := by
  rw [Counted, Text.lineAt, take_consume e, Text.newlines_append, ← Nat.add_assoc]
  exact congrArg (· + Text.newlines g.text) h

/-- **The newlines are counted wherever a turn begins**, and there a segment of the source fits. -/
theorem Counted.of_mem_before (hs : s.Counted) (h : Segmentation t gs) (e : s.rest = t)
    (hx : x ∈ s.before gs) :
    x.Counted ∧ x.source = s.source ∧ ∃ (g : Segment) (rest : Text), g.Fits rest ∧
      x.rest = g.text ++ rest := by
  induction h generalizing s with
  | nil => cases hx
  | @cons g rest gs hg _ ih =>
    rcases List.mem_cons.1 hx with rfl | hx
    · exact ⟨hs, rfl, g, rest, hg, e⟩
    · exact ih (s := s.consume g) (hs.consume e) (rest_consume e) hx

/-! ## The lines of a turn -/

theorem token_of_turn (hs : s.Counted) (hg : g.Fits rest) (e : s.rest = g.text ++ rest)
    {u : Token Nat} (hu : u ∈ s.newTokens s.turn) :
    u.lexeme ≠ [] ∧ u.line = s.source.lineAt s.current ∧
      u.lexeme = Text.slice s.source s.current s.turn.current := by
  have hl := lexeme_turn hg e
  rw [turn_eq_consume hg e, newTokens_consume, Option.mem_toList] at hu
  obtain ⟨h₁, h₂⟩ := Segment.eq_of_token?_eq_some hu
  refine ⟨h₁ ▸ hg.text_ne_nil, h₂.trans hs, h₁.trans ?_⟩
  rw [← hl, turn_eq_consume hg e]
  rfl

theorem current_consume_of_nil (hne : g.text ≠ []) (e : s.rest = g.text ++ []) :
    (s.consume g).current = s.source.length := by
  have hlen := congrArg List.length e
  have hpos := List.length_pos_iff.2 hne
  rw [length_rest, List.append_nil] at hlen
  change s.current + g.text.length = _
  omega

theorem diagnostic_of_turn (hs : s.Counted) (hg : g.Fits rest) (e : s.rest = g.text ++ rest)
    {d : Diagnostic} (hd : d ∈ s.newDiagnostics s.turn) :
    (d = .onLine (s.source.lineAt s.current) "Unexpected character.".toList ∧
        s.turn.current = s.current + 1) ∨
      (d = .onLine (1 + Text.newlines s.source) "Unterminated string.".toList ∧
        s.source[s.current]? = some '"' ∧ s.turn.current = s.source.length) := by
  have ht := turn_eq_consume hg e
  rw [ht, newDiagnostics_consume, Option.mem_toList] at hd
  rcases hg.eq_of_diagnostic?_eq_some hd with ⟨rfl, hl⟩ | ⟨rfl, hq, rfl⟩
  · refine Or.inl ⟨congrArg (Diagnostic.onLine · _) hs, ?_⟩
    rw [ht, ← hl]
    rfl
  · have hcur := current_consume_of_nil hg.text_ne_nil e
    have hline : s.line + Text.newlines g.text = 1 + Text.newlines s.source := by
      have hc : s.line + _ = 1 + Text.newlines (s.source.take _) := hs.consume e
      rwa [hcur, List.take_length] at hc
    refine Or.inr ⟨congrArg (Diagnostic.onLine · _) hline, ?_, ht ▸ hcur⟩
    rw [← List.head?_drop, show s.source.drop s.current = g.text ++ [] from e, List.append_nil, hq]

end Scanner

/-! ## The lines of a scan -/

open Scanner in
/-- **The lines of a scan.** A token stands on the line where it begins, also when it goes on over
several lines. A character that begins nothing is complained about on its own line; a string that is
not closed, on the last line of the source. -/
theorem lines_of_scan (source : Text) (reporter : Reporter) :
    let s : Scanner := { source, reporter }
    (scan source reporter).tokens =
        (s.turns.flatMap fun x => x.newTokens x.turn) ++
          [⟨.eof, [], .none, 1 + Text.newlines source⟩] ∧
      (scan source reporter).reporter.diagnostics =
        reporter.diagnostics ++ s.turns.flatMap (fun x => x.newDiagnostics x.turn) ∧
      (∀ x ∈ s.turns, x.line = source.lineAt x.current ∧
        (∀ t ∈ x.newTokens x.turn, t.lexeme ≠ [] ∧ t.line = source.lineAt x.current ∧
          t.lexeme = Text.slice source x.current x.turn.current) ∧
        ∀ d ∈ x.newDiagnostics x.turn,
          (d = .onLine (source.lineAt x.current) "Unexpected character.".toList ∧
            x.turn.current = x.current + 1) ∨
          (d = .onLine (1 + Text.newlines source) "Unterminated string.".toList ∧
            source[x.current]? = some '"' ∧ x.turn.current = source.length)) ∧
      (scan source reporter).current = source.length ∧
      (scan source reporter).line = 1 + Text.newlines source := by
  intro s
  obtain ⟨gs, h, -⟩ := existsUnique_segmentation source
  have hs : Segmentation s.rest gs := h
  have hc : s.Counted := rfl
  have hturns := turns_eq_before hs
  obtain ⟨-, htok, hrep, -, hcur, hline⟩ := fields_of_segmentation hs
  refine ⟨?_, ?_, fun x hx => ?_, ?_, hline⟩
  · rw [hturns]
    exact htok.trans (tokensOf_eq_flatMap hs rfl)
  · change s.scanTokens.scanner.reporter.diagnostics = _
    rw [hrep, Reporter.diagnostics_reportAll, hturns, diagnosticsOf_eq_flatMap hs rfl]
  · rw [hturns] at hx
    obtain ⟨hxc, hxs, g, rest, hg, e⟩ := hc.of_mem_before hs rfl hx
    have hxs' : x.source = source := hxs
    rw [← hxs']
    exact ⟨hxc, fun _ => token_of_turn hxc hg e, fun _ => diagnostic_of_turn hxc hg e⟩
  · exact hcur.trans (Nat.zero_add _)

open Scanner in
/-- The turn after a string of two lines begins on the second one. -/
theorem lines_of_scan_after_string :
    let s : Scanner := { source := ['"', '\n', '"', '$'] }
    s.turn ∈ s.turns ∧ s.turn.line = s.source.lineAt s.turn.current ∧ s.turn.line = 2 := by
  intro s
  have hmem : s.turn ∈ s.turns := by decide
  have hturn := (lines_of_scan s.source s.reporter).2.2.1 s.turn hmem
  exact ⟨hmem, hturn.1, by decide⟩

end BudgetLexer
