import BudgetLexer.Proofs.Grammar.Exchange
import BudgetLexer.Proofs.Resumption
import Mathlib.Data.List.Infix

/-!
# Splicing texts

A scan forgets all but its line where a token has ended. So a text that leaves no string and no comment
open may be put before any other, with a blank or a string between them, and the scan of the whole is
the scans of the parts.

* `pieces`: what the turns of a scan read; `Closed`, `EndsInComment`: how a text may end.
* `Joint`: what is put between two texts.
* **`scan_splice`**: the tokens and the diagnostics of two texts with a joint between them.
-/

namespace BudgetLexer

/-- What the turns of a fresh scan read, one after the other. -/
def pieces (source : Text) : List Text :=
  (Scanner.turns { source }).map fun x => x.turn.lexeme

/-- **The text is closed**: no string and no block comment goes on to its end. -/
def Closed (p : Text) : Prop :=
  (∀ d ∈ (scan p .silent).reporter.diagnostics, d.message ≠ "Unterminated string.".toList) ∧
    ∀ t ∈ pieces p, ['/', '*'] <+: t → ['*', '/'] <:+: t.drop 2

/-- The text ends inside a line comment. -/
def EndsInComment (p : Text) : Prop := ∃ t ∈ (pieces p).getLast?, ['/', '/'] <+: t

instance : DecidablePred Closed := fun p => by unfold Closed; infer_instance

instance : DecidablePred EndsInComment := fun p => by unfold EndsInComment; infer_instance

/-- **What joins two texts**: a blank, or a string of any body without quotes. -/
inductive Joint
  | blank (c : Char) (h : c ∈ blanks)
  | string (body : Text) (h : '"' ∉ body)

namespace Joint

/-- What stands between the texts. -/
def text : Joint → Text
  | blank c _ => [c]
  | string body _ => '"' :: (body ++ ['"'])

/-- The tokens of a joint on a given line: that of a string. -/
def tokens (line : Nat) : Joint → List (Token Nat)
  | blank _ _ => []
  | string body _ => [⟨.string, '"' :: (body ++ ['"']), .text body, line⟩]

theorem head?_mem_separators (m : Joint) (q : Text) : ∀ c ∈ (m.text ++ q).head?, c ∈ separators := by
  intro c hc
  cases m with
  | blank d hd =>
    obtain rfl : d = c := Option.some.inj hc
    exact List.mem_cons_of_mem _ hd
  | string =>
    obtain rfl : '"' = c := Option.some.inj hc
    exact List.mem_cons_self

theorem exists_segment (m : Joint) : ∃ g : Segment, (∀ rest, g.Fits rest) ∧ g.text = m.text ∧
    ∀ line, (g.token? line).toList = m.tokens line ∧ g.diagnostic? line = none := by
  cases m with
  | blank c h => exact ⟨⟨.blank, [c]⟩, fun _ => .blank h, rfl, fun _ => ⟨rfl, rfl⟩⟩
  | string b h =>
    refine ⟨⟨.string, '"' :: (b ++ ['"'])⟩, fun _ => .string h, rfl, fun line => ⟨?_, rfl⟩⟩
    simp [Segment.token?, tokens]

end Joint

variable {g : Segment} {gs : List Segment} {p t : Text}

/-! ## How a text ends -/

theorem pieces_eq (h : Segmentation p gs) : pieces p = gs.map Segment.text := by
  have hs : Segmentation (Scanner.rest { source := p }) gs := h
  rw [pieces, Scanner.turns_eq_before hs, Scanner.map_lexeme_before hs rfl]

theorem exists_diagnostic?_subset (hg : g ∈ gs) (line : Nat) :
    ∃ n, ∀ d ∈ g.diagnostic? n, d ∈ diagnosticsOf line gs := by
  induction gs generalizing line with
  | nil => cases hg
  | cons g' gs ih =>
    rcases List.mem_cons.1 hg with rfl | hg
    · exact ⟨line, fun d hd => List.mem_append_left _ (Option.mem_toList.2 hd)⟩
    · obtain ⟨n, hn⟩ := ih hg (line + Text.newlines g'.text)
      exact ⟨n, fun d hd => List.mem_append_right _ (hn d hd)⟩

theorem Closed.not_isOpen (hp : Closed p) (h : Segmentation p gs) (hg : g ∈ gs) : ¬ g.IsOpen := by
  obtain ⟨rest, hf⟩ := h.fits_of_mem hg
  rintro (ho | ⟨ho, hb⟩)
  · obtain ⟨n, hn⟩ := exists_diagnostic?_subset hg 1
    rw [Segment.diagnostic?, ho] at hn
    refine hp.1 (.onLine (n + Text.newlines g.text) "Unterminated string.".toList) ?_ rfl
    rw [diagnostics_scan_of_segmentation h]
    exact hn _ rfl
  · have hc : ['/', '*'] <+: g.text := by
      cases hf with
      | blockComment | openComment => exact ⟨_, rfl⟩
      | _ => cases ho
    refine hb (hp.2 g.text ?_ hc)
    rw [pieces_eq h]
    exact List.mem_map_of_mem hg

theorem endsInComment_of_getLast? (h : Segmentation p gs) (hg : g ∈ gs.getLast?)
    (hl : g.form = .lineComment) : EndsInComment p := by
  obtain ⟨rest, hf⟩ := h.fits_of_mem (List.mem_of_getLast? hg)
  refine ⟨g.text, ?_, ?_⟩
  · rw [pieces_eq h, List.getLast?_map, hg]
    rfl
  · cases hf with
    | lineComment => exact ⟨_, rfl⟩
    | _ => cases hl

/-- The last segment of a closed text ends where a newline follows; and any does that is no line
comment. -/
theorem Closed.ends_of_getLast? (hp : Closed p) (h : Segmentation p gs)
    (hl : EndsInComment p → t.head? = some '\n') : ∀ g ∈ gs.getLast?, g.Ends t := by
  intro g hg
  refine ⟨fun hf => Or.inr (hl (endsInComment_of_getLast? h hg hf)), fun ho => ?_⟩
  exact absurd ho (hp.not_isOpen h (List.mem_of_getLast? hg))

/-! ## The law -/

theorem map_add_scan_of_segmentation (h : Segmentation p gs) (shift : Nat) :
    (scan p .silent).tokens.map (Token.mapLine (· + shift)) = tokensOf (1 + shift) gs ∧
      (scan p .silent).reporter.diagnostics.map (Diagnostic.mapLine (· + shift)) =
        diagnosticsOf (1 + shift) gs := by
  have hn : (fun n : Nat => n + shift) = fun n => n + (1 + shift) - 1 := by
    funext n
    omega
  have hi : (fun n : Int => n + shift) = fun n : Int => n + (1 + shift : Nat) - 1 := by
    funext n
    omega
  rw [hn, hi]
  exact map_scan_of_segmentation h (1 + shift)

/-- **Splicing.** The tokens of a closed text, of a joint and of any text after it are those of the three
scanned apart, on the lines where they stand then; and so are the complaints. A line comment at the end
of the first text asks for a newline. -/
theorem scan_splice (p q : Text) (m : Joint) (reporter : Reporter) (hp : Closed p)
    (hm : EndsInComment p → m.text = ['\n']) :
    let shift := Text.newlines (p ++ m.text)
    ∃ ts line, (scan p reporter).tokens = ts ++ [⟨.eof, [], .none, line⟩] ∧
      (scan (p ++ m.text ++ q) reporter).tokens = ts ++ m.tokens line ++
        (scan q .silent).tokens.map (Token.mapLine (· + shift)) ∧
      (scan (p ++ m.text ++ q) reporter).reporter.diagnostics =
        (scan p reporter).reporter.diagnostics ++
          (scan q .silent).reporter.diagnostics.map (Diagnostic.mapLine (· + shift)) := by
  intro shift
  obtain ⟨gs, hs, -⟩ := existsUnique_segmentation p
  obtain ⟨us, hu, -⟩ := existsUnique_segmentation q
  obtain ⟨g, hg, ht, hgm⟩ := m.exists_segment
  have hall : Segmentation (p ++ m.text ++ q) (gs ++ g :: us) := by
    rw [List.append_assoc]
    refine hs.append (ht ▸ .cons (hg q) hu) (m.head?_mem_separators q) (hp.ends_of_getLast? hs ?_)
    intro hc
    rw [hm hc]
    rfl
  -- the three parts begin on these lines
  have hline : 1 + Text.newlines p + Text.newlines g.text = 1 + shift := by
    rw [ht, Nat.add_assoc, ← Text.newlines_append]
  obtain ⟨-, htok, hrep⟩ := scan_of_segmentation hall reporter
  obtain ⟨-, htok', hrep'⟩ := scan_of_segmentation hs reporter
  obtain ⟨hq, hq'⟩ := map_add_scan_of_segmentation hu shift
  obtain ⟨ts, hts⟩ := exists_tokensOf_append 1 gs
  have hts' := hts []
  rw [hs.flatMap_text] at hts
  rw [List.append_nil, hs.flatMap_text] at hts'
  refine ⟨ts, 1 + Text.newlines p, htok'.trans hts', ?_, ?_⟩
  · rw [htok, hq, hts, tokensOf, (hgm _).1, hline, List.append_assoc]
  · rw [hrep, hrep', hq', Reporter.diagnostics_reportAll, Reporter.diagnostics_reportAll,
      diagnosticsOf_append, hs.flatMap_text, diagnosticsOf, (hgm _).2, hline, List.append_assoc]
    rfl

/-- A slash before a string that holds a star, and a slash after it: neither begins a comment. -/
theorem scan_splice_slashes :
    let p : Text := ['/', '*', '/', '*', '/', '/']
    let m : Joint := .string ['*', '\n'] (by decide)
    let q : Text := ['/', '$']
    Closed p ∧ (EndsInComment p → m.text = ['\n']) ∧
      ∃ ts line, (scan p .silent).tokens = ts ++ [⟨.eof, [], .none, line⟩] ∧
        (scan (p ++ m.text ++ q) .silent).tokens = ts ++ m.tokens line ++
          (scan q .silent).tokens.map (Token.mapLine (· + 1)) ∧
        (scan (p ++ m.text ++ q) .silent).reporter.diagnostics =
          [.onLine 2 "Unexpected character.".toList] := by
  intro p m q
  have hp : Closed p := by decide
  have hm : EndsInComment p → m.text = ['\n'] := by decide
  obtain ⟨ts, line, htok, hall, hd⟩ := scan_splice p q m .silent hp hm
  exact ⟨hp, hm, ts, line, htok, hall, hd.trans (by decide)⟩

end BudgetLexer
