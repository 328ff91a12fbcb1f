import BudgetLexer.Proofs.Turn

/-!
# A whole scan

A scan consumes the segments of what is left, one in each turn, and adds the token that ends it. So it
gives what the only segmentation gives, from whatever state it begins.

* `Scanner.turn`, `Scanner.turns`: one turn, and the states in which the turns of a scan begin.
* `scanLoop_keeps`, `turns_keep`: what every turn keeps holds in the course of a scan and after it.
* `turns_eq_before`, **`scanTokens_of_segmentation`**: the turns of a scan and its outcome.
* **`scan_follows_grammar`**: the same of a source, with its only segmentation.
-/

namespace BudgetLexer

/-! ## Reporting a list -/

namespace Reporter

theorem reportAll_append (r : Reporter) (ds es : List Diagnostic) :
    r.reportAll (ds ++ es) = (r.reportAll ds).reportAll es := List.foldl_append

theorem diagnostics_reportAll (r : Reporter) (ds : List Diagnostic) :
    (r.reportAll ds).diagnostics = r.diagnostics ++ ds := by
  induction ds generalizing r with
  | nil => exact (List.append_nil _).symm
  | cons d ds ih =>
    change ((r.report d).reportAll ds).diagnostics = _
    rw [ih, diagnostics_report, List.append_assoc]
    rfl

end Reporter

namespace Scanner

/-! ## Turns -/

/-- The scanner after the turn that begins in the state `s`. -/
def turn (s : Scanner) : Scanner := s.mark.scanToken.scanner

/-- The states in which turns begin, when there are `n` turns at most. -/
def turnsUpTo : Nat → Scanner → List Scanner
  | 0, _ => []
  | n + 1, s => if s.isAtEnd then [] else s :: turnsUpTo n s.turn

/-- **The states in which the turns of a scan begin**, one after the other. -/
def turns (s : Scanner) : List Scanner := turnsUpTo s.rest.length s

/-- The states before each of the segments that are consumed. -/
def before (s : Scanner) : List Segment → List Scanner
  | [] => []
  | g :: gs => s :: before (s.consume g) gs

variable {s : Scanner} {rest t : Text} {g : Segment} {gs : List Segment} {n : Nat}

theorem turn_eq_consume (h : g.Fits rest) (e : s.rest = g.text ++ rest) : s.turn = s.consume g := by
  rw [turn, mark_scanToken h e]
  rfl

theorem current_turn (h : g.Fits rest) (e : s.rest = g.text ++ rest) :
    s.turn.current = s.current + g.text.length := by
  rw [turn_eq_consume h e]
  rfl

theorem rest_consume (e : s.rest = g.text ++ rest) : (s.consume g).rest = rest :=
  rest_beyond (s := s.mark) e

theorem isAtEnd_eq_false (h : g.Fits rest) (e : s.rest = g.text ++ rest) : s.isAtEnd = false := by
  rw [Bool.eq_false_iff]
  intro hend
  rw [← rest_eq_nil_iff, e] at hend
  exact h.text_ne_nil (List.append_eq_nil_iff.1 hend).1

theorem scanLoop_of_segmentation (h : Segmentation t gs) (e : s.rest = t) (hn : t.length ≤ n) :
    scanLoop n s = .ok () (gs.foldl consume s) := by
  induction h generalizing s n with
  | nil =>
    have hend : s.isAtEnd = true := (rest_eq_nil_iff s).1 e
    cases n with
    | zero => rfl
    | succ n => rw [scanLoop, if_pos hend, List.foldl_nil]
  | @cons g rest gs hg _ ih =>
    -- a segment has a character at least, so there are turns enough for the rest
    have hl := List.length_pos_iff.2 hg.text_ne_nil
    rw [List.length_append] at hn
    obtain ⟨n, rfl⟩ : ∃ m, n = m + 1 := ⟨n - 1, by omega⟩
    rw [scanLoop, isAtEnd_eq_false hg e, if_neg Bool.false_ne_true, mark_scanToken hg e,
      List.foldl_cons]
    exact ih (rest_consume e) (by omega)

theorem turnsUpTo_of_segmentation (h : Segmentation t gs) (e : s.rest = t) (hn : t.length ≤ n) :
    turnsUpTo n s = s.before gs := by
  induction h generalizing s n with
  | nil =>
    have hend : s.isAtEnd = true := (rest_eq_nil_iff s).1 e
    cases n with
    | zero => rfl
    | succ n => rw [turnsUpTo, if_pos hend, before]
  | @cons g rest gs hg _ ih =>
    have hl := List.length_pos_iff.2 hg.text_ne_nil
    rw [List.length_append] at hn
    obtain ⟨n, rfl⟩ : ∃ m, n = m + 1 := ⟨n - 1, by omega⟩
    rw [turnsUpTo, isAtEnd_eq_false hg e, if_neg Bool.false_ne_true, turn_eq_consume hg e,
      ih (rest_consume e) (by omega), before]

theorem turns_eq_before (h : Segmentation s.rest gs) : s.turns = s.before gs :=
  turnsUpTo_of_segmentation h rfl (Nat.le_refl _)

theorem lexeme_turn (h : g.Fits rest) (e : s.rest = g.text ++ rest) : s.turn.lexeme = g.text := by
  rw [turn_eq_consume h e]
  exact lexeme_beyond e

theorem map_lexeme_before (h : Segmentation t gs) (e : s.rest = t) :
    (s.before gs).map (fun x => x.turn.lexeme) = gs.map Segment.text := by
  induction h generalizing s with
  | nil => rfl
  | cons hg _ ih => rw [before, List.map_cons, lexeme_turn hg e, ih (rest_consume e), List.map_cons]

/-! ## What every turn keeps -/

theorem scanLoop_keeps {p : Scanner → Prop} (hp : ∀ x, p x → p x.turn) (n : Nat) (hs : p s) :
    p (scanLoop n s).scanner := by
  induction n generalizing s with
  | zero => exact hs
  | succ n ih =>
    have hturn := hp s hs
    unfold scanLoop
    split
    · exact hs
    unfold Scanner.turn at hturn
    split
    · next e =>
      rw [e] at hturn
      exact ih hturn
    · next e =>
      rw [e] at hturn
      exact hturn

theorem turns_keep {p : Scanner → Prop} (hp : ∀ x, p x → p x.turn) (hs : p s) :
    ∀ x ∈ s.turns, p x := by
  unfold turns
  generalize s.rest.length = n
  induction n generalizing s with
  | zero =>
    intro x hx
    cases hx
  | succ n ih =>
    intro x hx
    rw [turnsUpTo] at hx
    split at hx
    · cases hx
    · rcases List.mem_cons.1 hx with rfl | hx
      · exact hs
      · exact ih (hp s hs) x hx

/-! ## What the segments leave together -/

theorem source_foldl_consume (s : Scanner) (gs : List Segment) :
    (gs.foldl consume s).source = s.source := by
  induction gs generalizing s with
  | nil => rfl
  | cons g gs ih => exact ih (s.consume g)

theorem current_foldl_consume (s : Scanner) (gs : List Segment) :
    (gs.foldl consume s).current = s.current + (gs.flatMap Segment.text).length := by
  induction gs generalizing s with
  | nil => rfl
  | cons g gs ih =>
    rw [List.foldl_cons, ih, List.flatMap_cons, List.length_append, ← Nat.add_assoc]
    rfl

theorem line_foldl_consume (s : Scanner) (gs : List Segment) :
    (gs.foldl consume s).line = s.line + Text.newlines (gs.flatMap Segment.text) := by
  induction gs generalizing s with
  | nil => rfl
  | cons g gs ih =>
    rw [List.foldl_cons, ih, List.flatMap_cons, Text.newlines_append, ← Nat.add_assoc]
    rfl

theorem reporter_foldl_consume (s : Scanner) (gs : List Segment) :
    (gs.foldl consume s).reporter = s.reporter.reportAll (diagnosticsOf s.line gs) := by
  induction gs generalizing s with
  | nil => rfl
  | cons g gs ih =>
    rw [List.foldl_cons, ih, diagnosticsOf, Reporter.reportAll_append]
    rfl

theorem tokens_addEnd_foldl_consume (s : Scanner) (gs : List Segment) :
    (gs.foldl consume s).addEnd.tokens = s.tokens ++ tokensOf s.line gs := by
  induction gs generalizing s with
  | nil => rfl
  | cons g gs ih =>
    rw [List.foldl_cons, ih, tokensOf, ← List.append_assoc]
    rfl

/-- **A scan gives what the segments of the text that is left give**, and does not fail. -/
theorem scanTokens_of_segmentation (h : Segmentation s.rest gs) :
    s.scanTokens = .ok (s.tokens.length + (tokensOf s.line gs).length)
      { gs.foldl consume s with tokens := s.tokens ++ tokensOf s.line gs } := by
  have hl := scanLoop_of_segmentation h rfl (Nat.le_refl _)
  have ht := tokens_addEnd_foldl_consume s gs
  rw [scanTokens, hl]
  change Call.ok (gs.foldl consume s).addEnd.tokens.length (gs.foldl consume s).addEnd = _
  rw [← List.length_append, ← ht]
  rfl

theorem fields_of_segmentation (h : Segmentation s.rest gs) :
    s.scanTokens.result = .ok (s.tokens.length + (tokensOf s.line gs).length) ∧
      s.scanTokens.scanner.tokens = s.tokens ++ tokensOf s.line gs ∧
      s.scanTokens.scanner.reporter = s.reporter.reportAll (diagnosticsOf s.line gs) ∧
      s.scanTokens.scanner.source = s.source ∧
      s.scanTokens.scanner.current = s.current + s.rest.length ∧
      s.scanTokens.scanner.line = s.line + Text.newlines s.rest := by
  rw [scanTokens_of_segmentation h]
  refine ⟨rfl, rfl, reporter_foldl_consume s gs, source_foldl_consume s gs, ?_, ?_⟩
  · rw [← h.flatMap_text]
    exact current_foldl_consume s gs
  · rw [← h.flatMap_text]
    exact line_foldl_consume s gs

end Scanner

theorem scan_of_segmentation {source : Text} {gs : List Segment} (h : Segmentation source gs)
    (reporter : Reporter) :
    (Scanner.scanTokens { source, reporter }).result = .ok (tokensOf 1 gs).length ∧
      (scan source reporter).tokens = tokensOf 1 gs ∧
      (scan source reporter).reporter = reporter.reportAll (diagnosticsOf 1 gs) := by
  have hs : Segmentation (Scanner.rest { source, reporter }) gs := h
  obtain ⟨hres, htok, hrep, -⟩ := Scanner.fields_of_segmentation hs
  exact ⟨hres.trans (congrArg Except.ok (Nat.zero_add _)), htok, hrep⟩

theorem diagnostics_scan_of_segmentation {source : Text} {gs : List Segment}
    (h : Segmentation source gs) :
    (scan source .silent).reporter.diagnostics = diagnosticsOf 1 gs := by
  rw [(scan_of_segmentation h .silent).2.2, Reporter.diagnostics_reportAll]
  rfl

/-! ## The grammar -/

/-- **A scan follows the grammar.** A source has exactly one segmentation. The turns of a scan read its
segments, one after the other, and nothing fails. The scan finds a token for each segment of a token's
form, in order, and the end; it reports each segment that is in error, and nothing else. What is taken
for a stray character is what no other segment begins with. -/
theorem scan_follows_grammar (source : Text) (reporter : Reporter) :
    ∃ gs, (∀ gs', Segmentation source gs' ↔ gs' = gs) ∧
      (Scanner.turns { source, reporter }).map (fun x => x.turn.lexeme) = gs.map Segment.text ∧
      (Scanner.scanTokens { source, reporter }).result = .ok (tokensOf 1 gs).length ∧
      (scan source reporter).tokens = tokensOf 1 gs ∧
      (scan source reporter).reporter.diagnostics = reporter.diagnostics ++ diagnosticsOf 1 gs ∧
      (∀ g ∈ gs, ∀ line, (g.token? line).isSome = g.form.isToken) ∧
      ∀ c, Begins c ↔ ∃ (g : Segment) (rest : Text),
        g.Fits rest ∧ g.form ≠ .stray ∧ g.text.head? = some c := by
  obtain ⟨gs, h, hu⟩ := existsUnique_segmentation source
  obtain ⟨hres, htok, hrep⟩ := scan_of_segmentation h reporter
  have hs : Segmentation (Scanner.rest { source, reporter }) gs := h
  refine ⟨gs, fun gs' => ⟨hu gs', fun e => e ▸ h⟩, ?_, hres, htok, ?_, ?_, fun c => begins_iff⟩
  · rw [Scanner.turns_eq_before hs, Scanner.map_lexeme_before hs rfl]
  · rw [hrep, Reporter.diagnostics_reportAll]
  · intro g hg line
    obtain ⟨rest, hf⟩ := h.fits_of_mem hg
    exact hf.isSome_token? line

end BudgetLexer
