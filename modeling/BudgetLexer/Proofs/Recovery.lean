import BudgetLexer.Proofs.Grammar.Blanking
import BudgetLexer.Proofs.Lines

/-!
# Recovery from errors

An error costs the characters it is about and nothing else: a scan of the source with spaces in their
place, the newlines of an unclosed string apart, finds the same tokens on the same lines, and has
nothing to complain about.

* `Scanner.complains`: a turn makes a complaint; `complains_eq` tells the segments where it does.
* `countP_range_of_aligned`, `length_diagnosticsOf`: how many complaints there are.
* **`scan_repaired`**: the scan of a source with its errors taken out.
-/

namespace BudgetLexer

/-- The turn that begins in this state makes a complaint with the message. -/
def Scanner.complains (message : Text) (x : Scanner) : Bool :=
  (x.newDiagnostics x.turn).any (·.message == message)

/-- The forms of the segments in error. -/
def Form.isError : Form → Bool
  | .stray | .openString => true
  | _ => false

variable {P : Form → Bool} {p : Nat → Bool} {g : Segment} {gs : List Segment} {rest t : Text}
  {x : Scanner}

theorem Form.isToken_of_isError {f : Form} (h : f.isError = true) : f.isToken = false := by
  cases f with
  | stray | openString => rfl
  | _ => cases h

/-! ## Complaints about segments -/

theorem Segment.any_diagnostic? (g : Segment) (line : Nat) :
    (g.diagnostic? line).toList.any (·.message == "Unexpected character.".toList) =
        (g.form == .stray) ∧
      (g.diagnostic? line).toList.any (·.message == "Unterminated string.".toList) =
        (g.form == .openString) := by
  obtain ⟨f, t⟩ := g
  cases f with
  | stray | openString => simp [diagnostic?, Diagnostic.onLine]
  | _ => exact ⟨rfl, rfl⟩

theorem Segment.diagnostic?_eq_none (h : g.form.isError = false) (line : Nat) :
    g.diagnostic? line = none := by
  obtain ⟨f, t⟩ := g
  cases f with
  | stray | openString => cases h
  | _ => rfl

theorem Scanner.complains_eq (hg : g.Fits rest) (e : x.rest = g.text ++ rest) :
    x.complains "Unexpected character.".toList = (g.form == .stray) ∧
      x.complains "Unterminated string.".toList = (g.form == .openString) := by
  unfold complains
  rw [turn_eq_consume hg e, newDiagnostics_consume]
  exact g.any_diagnostic? x.line

theorem diagnosticsOf_blankedIf_isError (line : Nat) (gs : List Segment) :
    diagnosticsOf line (blankedIf Form.isError gs) = [] := by
  induction gs generalizing line with
  | nil => rfl
  | cons g gs ih =>
    rw [blankedIf, List.flatMap_cons]
    split
    · exact (tokensOf_blanksFor line g.text _).2.trans (ih _)
    · next h =>
      rw [List.cons_append, diagnosticsOf, g.diagnostic?_eq_none (Bool.eq_false_iff.2 h)]
      exact ih _

/-! ## Counting complaints -/

theorem countP_range_of_aligned (h : Segmentation t gs) (hp : Aligned P p gs)
    (hl : ∀ g ∈ gs, P g.form = true → g.text.length = 1) :
    (List.range t.length).countP p = gs.countP (P ·.form) := by
  induction h generalizing p with
  | nil => rfl
  | @cons g rest gs hg _ ih =>
    have hfirst : (List.range g.text.length).countP p = if P g.form then 1 else 0 := by
      rw [List.countP_congr (q := fun _ => P g.form) fun k hk => by rw [hp.1 k (List.mem_range.1 hk)]]
      cases hP : P g.form with
      | false => simp
      | true => simp [hl g List.mem_cons_self hP]
    rw [List.length_append, List.range_add, List.countP_append, List.countP_map, hfirst,
      List.countP_cons, Nat.add_comm, ← ih hp.2 fun g' hg' => hl g' (List.mem_cons_of_mem _ hg')]
    rfl

theorem length_diagnosticsOf (line : Nat) (gs : List Segment) :
    (diagnosticsOf line gs).length =
      gs.countP (·.form == .stray) + gs.countP (·.form == .openString) := by
  induction gs generalizing line with
  | nil => rfl
  | cons g gs ih =>
    obtain ⟨f, t⟩ := g
    rw [diagnosticsOf, List.length_append, ih, List.countP_cons, List.countP_cons]
    cases f with
    | stray | openString =>
      simp [Segment.diagnostic?]
      omega
    | _ => simp [Segment.diagnostic?]

theorem Segment.Fits.eq_nil_of_openString (h : g.Fits rest) (ho : g.form = .openString) :
    rest = [] := by
  cases h with
  | openString => rfl
  | _ => cases ho

theorem countP_openString (h : Segmentation t gs) (line : Nat) :
    gs.countP (·.form == .openString) =
      if (diagnosticsOf line gs).any (·.message == "Unterminated string.".toList) then 1 else 0 := by
  induction h generalizing line with
  | nil => rfl
  | @cons g rest gs hg h ih =>
    rw [diagnosticsOf, List.any_append, (g.any_diagnostic? line).2, List.countP_cons]
    by_cases ho : g.form = .openString
    · obtain rfl := hg.eq_nil_of_openString ho
      obtain rfl := h.eq_nil
      simp [ho]
    · rw [beq_eq_false_iff_ne.2 ho, if_neg Bool.false_ne_true, Bool.false_or]
      exact ih _

/-! ## The law -/

theorem Scanner.turn_of_error (hg : g.Fits rest) (e : x.rest = g.text ++ rest) :
    (g.form = .stray → x.turn.current = x.current + 1 ∧ x.source[x.current]? ≠ some '\n') ∧
      (g.form = .openString →
        x.turn.current = x.source.length ∧ x.source[x.current]? = some '"') := by
  have hturn := current_turn hg e
  have hhead : x.source[x.current]? = (g.text ++ rest).head? := by
    rw [← e, Scanner.rest, List.head?_drop]
  have hlen := x.length_rest
  rw [e, List.length_append] at hlen
  cases hg with
  | stray h =>
    refine ⟨fun _ => ⟨hturn, ?_⟩, fun ho => (by cases ho)⟩
    rw [hhead]
    intro hc
    obtain rfl := Option.some.inj hc
    exact h (by decide)
  | openString =>
    refine ⟨fun ho => (by cases ho), fun _ => ⟨?_, hhead⟩⟩
    simp only [List.length_cons, List.length_nil] at hturn hlen
    omega
  | _ => exact ⟨fun ho => (by cases ho), fun ho => (by cases ho)⟩

open Scanner in
/-- **Recovery.** Let the characters give way to spaces that a turn reads and complains about. A scan
finds the same tokens then, and complains about nothing. There was a complaint about each character
that begins nothing, and one more if a string was not closed, which went on to the end. -/
theorem scan_repaired (source : Text) (reporter : Reporter) :
    let stray := complains "Unexpected character.".toList
    let unclosed := complains "Unterminated string.".toList
    let repaired := blankedWhere (readBy source fun x => stray x || unclosed x) source
    (scan repaired reporter).tokens = (scan source reporter).tokens ∧
      (scan repaired reporter).reporter = reporter ∧
      (scan source .silent).reporter.diagnostics.length =
        (List.range source.length).countP (readBy source stray) +
          (if (scan source .silent).reporter.diagnostics.any
            (·.message == "Unterminated string.".toList) then 1 else 0) ∧
      ∀ x ∈ turns { source },
        (stray x = true → x.turn.current = x.current + 1 ∧ source[x.current]? ≠ some '\n') ∧
        (unclosed x = true → x.turn.current = source.length ∧ source[x.current]? = some '"') := by
  intro stray unclosed repaired
  obtain ⟨gs, h, -⟩ := existsUnique_segmentation source
  have hs : Segmentation (rest { source }) gs := h
  have hstray : Aligned (· == .stray) (readBy source stray) gs :=
    aligned_readBy h fun x g rest hg e => (complains_eq hg e).1
  have herror : Aligned Form.isError (readBy source fun x => stray x || unclosed x) gs := by
    refine aligned_readBy h fun x g rest hg e => ?_
    change (complains _ x || complains _ x) = _
    rw [(complains_eq hg e).1, (complains_eq hg e).2]
    cases g.form <;> rfl
  have hrep : Segmentation repaired (blankedIf Form.isError gs) := h.blankedWhere herror
  obtain ⟨-, htok, hdiag⟩ := scan_of_segmentation h reporter
  obtain ⟨-, htok', hdiag'⟩ := scan_of_segmentation hrep reporter
  refine ⟨?_, ?_, ?_, fun x hx => ?_⟩
  · rw [htok, htok', tokensOf_blankedIf fun _ => Form.isToken_of_isError]
  · rw [hdiag', diagnosticsOf_blankedIf_isError]
    rfl
  · rw [diagnostics_scan_of_segmentation h, length_diagnosticsOf, countP_openString h 1,
      countP_range_of_aligned h hstray]
    intro g hg hf
    obtain ⟨rest, hfit⟩ := h.fits_of_mem hg
    cases hfit with
    | stray => rfl
    | _ => cases hf
  · rw [turns_eq_before hs] at hx
    obtain ⟨hxc, hxs, g, rest, hg, e⟩ := Counted.of_mem_before (s := { source }) rfl hs rfl hx
    obtain rfl : x.source = source := hxs
    obtain ⟨hone, hall⟩ := turn_of_error hg e
    obtain ⟨hst, hun⟩ := complains_eq hg e
    exact ⟨fun hx => hone (beq_iff_eq.1 (hst.symm.trans hx)),
      fun hx => hall (beq_iff_eq.1 (hun.symm.trans hx))⟩

end BudgetLexer
