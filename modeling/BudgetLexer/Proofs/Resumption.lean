import BudgetLexer.Proofs.Grammar.Tokens
import BudgetLexer.Proofs.Run

/-!
# Scans from any state

A scan may begin in any state: with the cursor anywhere, also past the end of the source, on any line,
and with tokens and diagnostics held already. It finds what a fresh scan of the text that is left
finds, on lines counted on from the one it begins on.

* `tokensOf_map`, `diagnosticsOf_map`: what segments give on another line; `map_scan_of_segmentation`
  says it of a fresh scan.
* `repeat_scanTokens`: scans that follow one another at the end.
* **`scanTokens_from_any_state`**: what a scan from any state finds and leaves.
-/

namespace BudgetLexer

variable {g : Segment} {gs : List Segment} {line line' : Nat}

/-- The same diagnostic on another line, if its line is a number. -/
def Diagnostic.mapLine (f : Int → Int) (d : Diagnostic) : Diagnostic :=
  match d.line with
  | .int n => { d with line := .int (f n) }
  | _ => d

/-! ## Segments on another line -/

theorem Segment.token?_map {f : Nat → Nat} (hf : f line = line') :
    g.token? line' = (g.token? line).map (Token.mapLine f) := by
  obtain ⟨form, t⟩ := g
  subst hf
  cases form with
  | mark | longOperator | operator | slash | number =>
    simp only [token?, Option.map_map]
    rfl
  | _ => rfl

theorem Segment.diagnostic?_map {f : Int → Int}
    (hf : ∀ n : Nat, f (line + n : Nat) = (line' + n : Nat)) :
    g.diagnostic? line' = (g.diagnostic? line).map (Diagnostic.mapLine f) := by
  obtain ⟨form, t⟩ := g
  cases form with
  | stray =>
    change some (Diagnostic.onLine _ _) = some (Diagnostic.mk (.int (f (line + 0 : Nat))) _)
    rw [hf 0]
    rfl
  | openString =>
    change some (Diagnostic.onLine _ _) = some (Diagnostic.mk (.int (f (line + _ : Nat))) _)
    rw [hf]
    rfl
  | _ => rfl

theorem tokensOf_map {f : Nat → Nat} (hf : ∀ n, f (line + n) = line' + n) :
    tokensOf line' gs = (tokensOf line gs).map (Token.mapLine f) := by
  induction gs generalizing line line' with
  | nil => exact congrArg (fun n => [Token.mk .eof [] .none n]) (hf 0).symm
  | cons g gs ih =>
    have h₀ : f line = line' := hf 0
    have hg : ∀ n, f (line + Text.newlines g.text + n) = line' + Text.newlines g.text + n := by
      intro n
      rw [Nat.add_assoc, hf, Nat.add_assoc]
    rw [tokensOf, tokensOf, List.map_append, ← ih hg, Segment.token?_map h₀, Option.toList_map]

theorem diagnosticsOf_map {f : Int → Int}
    (hf : ∀ n : Nat, f (line + n : Nat) = (line' + n : Nat)) :
    diagnosticsOf line' gs = (diagnosticsOf line gs).map (Diagnostic.mapLine f) := by
  induction gs generalizing line line' with
  | nil => rfl
  | cons g gs ih =>
    have hg : ∀ n : Nat, f (line + Text.newlines g.text + n : Nat) =
        (line' + Text.newlines g.text + n : Nat) := by
      intro n
      rw [Nat.add_assoc, hf, Nat.add_assoc]
    rw [diagnosticsOf, diagnosticsOf, List.map_append, ← ih hg, Segment.diagnostic?_map hf,
      Option.toList_map]

/-- What segments give from a line on is what a fresh scan finds, on lines counted on from that one. No
line of a fresh scan is below 1, so the subtraction loses nothing. -/
theorem map_scan_of_segmentation {source : Text} (h : Segmentation source gs) (line : Nat) :
    (scan source .silent).tokens.map (Token.mapLine fun n => n + line - 1) = tokensOf line gs ∧
      (scan source .silent).reporter.diagnostics.map (Diagnostic.mapLine fun n => n + line - 1) =
        diagnosticsOf line gs := by
  obtain ⟨-, htok, hrep⟩ := scan_of_segmentation h .silent
  have hd : (scan source .silent).reporter.diagnostics = diagnosticsOf 1 gs := by
    rw [hrep, Reporter.diagnostics_reportAll]
    rfl
  rw [htok, hd]
  refine ⟨(tokensOf_map fun n => ?_).symm, (diagnosticsOf_map fun n => ?_).symm⟩
  · omega
  · omega

/-! ## Scans at the end -/

namespace Scanner

variable {s : Scanner}

theorem scanTokens_of_isAtEnd (h : s.isAtEnd = true) :
    s.scanTokens = .ok (s.tokens.length + 1) s.addEnd := by
  have hs : Segmentation s.rest [] := (s.rest_eq_nil_iff.2 h) ▸ .nil
  exact scanTokens_of_segmentation hs

/-- The scanner with the token that ends a scan added a number of times. -/
def addEnds (s : Scanner) (n : Nat) : Scanner :=
  { s with tokens := s.tokens ++ List.replicate n ⟨.eof, [], .none, s.line⟩ }

theorem addEnds_zero (s : Scanner) : s.addEnds 0 = s := by
  rw [addEnds, List.replicate_zero, List.append_nil]

theorem addEnd_addEnds (s : Scanner) (n : Nat) : (s.addEnds n).addEnd = s.addEnds (n + 1) := by
  rw [addEnd, addEnds, addEnds, List.replicate_succ', ← List.append_assoc]

theorem length_tokens_addEnds (s : Scanner) (n : Nat) :
    (s.addEnds n).tokens.length = s.tokens.length + n := by
  rw [addEnds, List.length_append, List.length_replicate]

theorem scanTokens_addEnds (h : s.isAtEnd = true) (n : Nat) :
    (s.addEnds n).scanTokens = .ok (s.tokens.length + (n + 1)) (s.addEnds (n + 1)) := by
  have hn : (s.addEnds n).isAtEnd = true := h
  rw [scanTokens_of_isAtEnd hn, addEnd_addEnds, length_tokens_addEnds, Nat.add_assoc]

/-- **Scans that follow one another at the end** add one end each. -/
theorem repeat_scanTokens (h : s.isAtEnd = true) (n : Nat) :
    Nat.repeat (fun x => x.scanTokens.scanner) n s = s.addEnds n := by
  induction n with
  | zero => exact s.addEnds_zero.symm
  | succ n ih =>
    change (Nat.repeat _ n s).scanTokens.scanner = _
    rw [ih, scanTokens_addEnds h]
    rfl

end Scanner

/-! ## Scans from any state -/

open Scanner in
/-- **A scan from any state finds what a fresh scan of the rest finds**, on lines counted on from the
line of the state. What is held before stays; where the lexeme begins and what the source is before the
cursor does not matter; the cursor comes to the end, so more turns would change nothing; and another
scan adds the end again. -/
theorem scanTokens_from_any_state (s : Scanner) :
    let fresh := scan (s.source.drop s.current) .silent
    let after := s.scanTokens.scanner
    let found := fresh.reporter.diagnostics.map (Diagnostic.mapLine fun n => n + s.line - 1)
    s.scanTokens.result = .ok (s.tokens.length + fresh.tokens.length) ∧
      after.tokens = s.tokens ++ fresh.tokens.map (Token.mapLine fun n => n + s.line - 1) ∧
      after.reporter.diagnostics = s.reporter.diagnostics ++ found ∧
      after.reporter = s.reporter.reportAll found ∧
      after.source = s.source ∧
      after.current = max s.current s.source.length ∧
      after.line = s.line + Text.newlines (s.source.drop s.current) ∧
      (∀ n, scanLoop (s.rest.length + n) s = scanLoop s.rest.length s) ∧
      (∀ before start startLine,
        let other := { s with
          source := before ++ s.source.drop s.current, current := before.length, start, startLine }
        other.scanTokens.result = s.scanTokens.result ∧
          other.scanTokens.scanner.tokens = after.tokens ∧
          other.scanTokens.scanner.reporter = after.reporter ∧
          other.scanTokens.scanner.line = after.line) ∧
      ∀ n, (Nat.repeat (fun x => x.scanTokens.scanner) n after).scanTokens =
        .ok (after.tokens.length + (n + 1)) (after.addEnds (n + 1)) := by
  intro fresh after found
  obtain ⟨gs, h, -⟩ := existsUnique_segmentation s.rest
  obtain ⟨hres, htok, hrep, hsrc, hcur, hline⟩ := fields_of_segmentation h
  have hmap := map_scan_of_segmentation h s.line
  have htokens : fresh.tokens.map _ = tokensOf s.line gs := hmap.1
  have hfound : found = diagnosticsOf s.line gs := hmap.2
  have hlen : fresh.tokens.length = (tokensOf s.line gs).length := by
    rw [← htokens, List.length_map]
  refine ⟨by rw [hres, hlen], by rw [htokens]; exact htok, ?_, ?_, hsrc, ?_, hline, ?_, ?_, ?_⟩
  · rw [hrep, Reporter.diagnostics_reportAll, hfound]
  · rw [hrep, hfound]
  · rw [hcur, length_rest]
    omega
  · intro n
    rw [scanLoop_of_segmentation h rfl (Nat.le_add_right _ _),
      scanLoop_of_segmentation h rfl (Nat.le_refl _)]
  · -- nothing but the rest, the line and what is held goes into the findings
    intro before start startLine other
    have hr : other.rest = s.rest := List.drop_left
    obtain ⟨ores, otok, orep, -, -, oline⟩ := fields_of_segmentation (s := other) (hr ▸ h)
    exact ⟨ores.trans hres.symm, otok.trans htok.symm, orep.trans hrep.symm,
      oline.trans (hr ▸ hline.symm)⟩
  · intro n
    have hend : after.isAtEnd = true := isAtEnd_scanTokens s
    rw [repeat_scanTokens hend, scanTokens_addEnds hend]

end BudgetLexer
