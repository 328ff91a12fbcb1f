import BudgetLexer.Proofs.CommandLine.Prompt
import BudgetLexer.Proofs.Splice

/-!
# The prompt against a run on the whole text

Where no line leaves a string or a block comment open, it makes no difference to what is found whether
the lines are scanned one by one, each from line 1 on, or in one go, with the lines counted on.

* `foundOn`, `complaintsOn`: what a scan of a line finds, put on a given line.
* `Segmentation.line`: the segments of a line, a newline and the rest.
* `exists_segmentation_of_cut`: a scan of the whole finds what scans of the lines find, on consecutive
  lines.
* **`prompt_agrees`**: what the prompt and the run on the whole text write.
-/

namespace BudgetLexer

/-- The tokens but for the end. -/
def withoutEnd (ts : List (Token Nat)) : List (Token Nat) := ts.filter (·.kind ≠ .eof)

/-- **The tokens of a line**, the end apart, put on line `n`. -/
def foundOn (line : Text) (n : Nat) : List (Token Nat) :=
  (withoutEnd (scan line .silent).tokens).map (Token.mapLine fun _ => n)

/-- **The diagnostics of a line**, put on line `n`. -/
def complaintsOn (line : Text) (n : Nat) : List Diagnostic :=
  (scan line .silent).reporter.diagnostics.map fun d => .onLine n d.message

variable {t u l left : Text} {lines : List Text} {gs us : List Segment} {n : Nat}

/-! ## One line -/

theorem withoutEnd_append (ts us : List (Token Nat)) :
    withoutEnd (ts ++ us) = withoutEnd ts ++ withoutEnd us := List.filter_append ..

theorem withoutEnd_tokensOf_append (n : Nat) (gs hs : List Segment) :
    withoutEnd (tokensOf n (gs ++ hs)) = withoutEnd (tokensOf n gs) ++
      withoutEnd (tokensOf (n + Text.newlines (gs.flatMap Segment.text)) hs) := by
  obtain ⟨ts, h⟩ := exists_tokensOf_append n gs
  have hgs := h []
  rw [List.append_nil] at hgs
  rw [h, hgs, withoutEnd_append, withoutEnd_append]
  exact congrArg (· ++ _) (List.append_nil _).symm

theorem found_of_segmentation (h : Segmentation l gs) (hl : '\n' ∉ l) (n : Nat) :
    withoutEnd (tokensOf n gs) = foundOn l n ∧ diagnosticsOf n gs = complaintsOn l n := by
  obtain ⟨htok, hdiag⟩ := map_scan_of_segmentation h n
  obtain ⟨hone, hone'⟩ := line_eq_one hl
  constructor
  · rw [← htok, withoutEnd, List.filter_map]
    refine List.map_congr_left fun t ht => ?_
    have ht : t.line = 1 := hone t (List.mem_of_mem_filter ht)
    rw [Token.mapLine, Token.mapLine, ht, Nat.add_sub_cancel_left]
  · rw [← hdiag]
    refine List.map_congr_left fun d hd => ?_
    obtain ⟨line, message⟩ := d
    obtain rfl : line = .int 1 := hone' _ hd
    exact congrArg (fun k => Diagnostic.mk (.int k) message) (by omega : (1 + n - 1 : Int) = n)

theorem Segmentation.line (h : Segmentation l gs) (hc : Closed l) (hu : Segmentation u us) :
    Segmentation (l ++ '\n' :: u) (gs ++ ⟨.blank, ['\n']⟩ :: us) := by
  refine h.append (.cons (.blank (by decide)) hu) ?_ (hc.ends_of_getLast? h fun _ => rfl)
  rintro _ ⟨⟩
  decide

/-! ## All lines -/

/-- **A scan of the whole finds what scans of the lines find**, on consecutive lines. -/
theorem exists_segmentation_of_cut (h : Cut t lines left) (hc : ∀ l ∈ lines, Closed l) :
    ∃ gs, Segmentation t gs ∧ ∀ n,
      withoutEnd (tokensOf n gs) =
        ((lines ++ [left]).zipIdx n).flatMap (fun p => foundOn p.1 p.2) ∧
      diagnosticsOf n gs = ((lines ++ [left]).zipIdx n).flatMap fun p => complaintsOn p.1 p.2 := by
  obtain ⟨rfl, hlines, hleft⟩ := h
  induction lines with
  | nil =>
    obtain ⟨gs, hgs, -⟩ := existsUnique_segmentation left
    refine ⟨gs, hgs, fun n => ?_⟩
    simpa using found_of_segmentation hgs hleft n
  | cons l lines ih =>
    obtain ⟨us, hu, hfound⟩ := ih (fun l' hl' => hc l' (List.mem_cons_of_mem _ hl'))
      fun l' hl' => hlines l' (List.mem_cons_of_mem _ hl')
    obtain ⟨gs, hgs, -⟩ := existsUnique_segmentation l
    have hl := hlines l List.mem_cons_self
    refine ⟨gs ++ ⟨.blank, ['\n']⟩ :: us, ?_, fun n => ?_⟩
    · rw [endedLines_cons_append]
      exact hgs.line (hc l List.mem_cons_self) hu
    · -- the lines after this one begin one line further on
      have hnext : n + Text.newlines (gs.flatMap Segment.text) = n := by
        rw [hgs.flatMap_text, Scanner.newlines_eq_zero hl, Nat.add_zero]
      have htok : tokensOf n (⟨.blank, ['\n']⟩ :: us) = tokensOf (n + 1) us := rfl
      have hdiag : diagnosticsOf n (⟨.blank, ['\n']⟩ :: us) = diagnosticsOf (n + 1) us := rfl
      obtain ⟨hfirst, hfirst'⟩ := found_of_segmentation hgs hl n
      obtain ⟨hrest, hrest'⟩ := hfound (n + 1)
      rw [withoutEnd_tokensOf_append, diagnosticsOf_append, hnext, htok, hdiag, hfirst, hfirst',
        hrest, hrest', List.cons_append, List.zipIdx_cons, List.flatMap_cons, List.flatMap_cons]
      exact ⟨rfl, rfl⟩

/-! ## The lines of a text -/

theorem exists_cut_of_lines (ht : t = endedLines lines ∨ t ++ ['\n'] = endedLines lines)
    (hn : ∀ l ∈ lines, '\n' ∉ l) (hne : [] ∉ lines) :
    ∃ ls left, Cut t ls left ∧ linesRead false ls left = lines := by
  rcases ht with rfl | ht
  · exact ⟨lines, [], ⟨(List.append_nil _).symm, hn, by simp⟩, by simp [linesRead]⟩
  rcases List.eq_nil_or_concat lines with rfl | ⟨ls, l, h⟩
  · exact absurd ht (by simp [endedLines])
  · rw [List.concat_eq_append] at h
    subst h
    have hl : l ≠ [] := fun e => hne (by simp [e])
    have e : endedLines (ls ++ [l]) = endedLines ls ++ l ++ ['\n'] := by simp [endedLines]
    rw [e] at ht
    refine ⟨ls, l, ⟨List.append_cancel_right ht, fun l' hl' => ?_, ?_⟩, by simp [linesRead, hl]⟩
    · exact hn l' (List.mem_append_left _ hl')
    · exact hn l (by simp)

theorem flatMap_linesRead {α : Type} {f : Text → Nat → List α} (hf : ∀ n, f [] n = [])
    (lines : List Text) (left : Text) (n : Nat) :
    ((linesRead false lines left).zipIdx n).flatMap (fun p => f p.1 p.2) =
      ((lines ++ [left]).zipIdx n).flatMap fun p => f p.1 p.2 := by
  by_cases hl : left = []
  · simp [linesRead, hl, List.zipIdx_append, hf]
  · simp [linesRead, hl]

theorem map_flatMap_zipIdx {α β : Type} {f : Text → Nat → List α} {g : Text → List α} {h : α → β}
    (hfg : ∀ l n, (f l n).map h = (g l).map h) (lines : List Text) (n : Nat) :
    ((lines.zipIdx n).flatMap fun p => f p.1 p.2).map h = (lines.flatMap g).map h := by
  induction lines generalizing n with
  | nil => rfl
  | cons l lines ih =>
    rw [List.zipIdx_cons, List.flatMap_cons, List.flatMap_cons, List.map_append, List.map_append,
      hfg, ih]

/-! ## The law -/

/-- **The prompt agrees with a run on the whole text**, where no line is empty and each is closed by
itself. But for the ends, both find tokens of the same kinds, lexemes and literals in the same order,
and diagnostics of the same messages; those from the `i`-th line are on line `i` in the run on the whole
text, and on line 1 in the prompt. -/
theorem prompt_agrees (t : Text) (lines : List Text) (tree : FileTree)
    (ht : t = endedLines lines ∨ t ++ ['\n'] = endedLines lines) (hn : ∀ l ∈ lines, '\n' ∉ l)
    (hne : [] ∉ lines) (hc : ∀ l ∈ lines, Closed l) :
    let w : Surroundings := ⟨t, false, tree⟩
    let whole := scan t .silent
    runCommand w (.ofArguments []) = answering lines ∧
      Processes t (runCommand w (.ofArguments ["run".toList, ['-']])) ∧
      withoutEnd whole.tokens = (lines.zipIdx 1).flatMap (fun p => foundOn p.1 p.2) ∧
      whole.reporter.diagnostics = (lines.zipIdx 1).flatMap (fun p => complaintsOn p.1 p.2) ∧
      (∀ l ∈ lines, (∀ u ∈ (scan l .silent).tokens, u.line = 1) ∧
        ∀ d ∈ (scan l .silent).reporter.diagnostics, d.line = .int 1) ∧
      (withoutEnd whole.tokens).map (Token.mapLine fun _ => ()) =
        (lines.flatMap fun l => withoutEnd (scan l .silent).tokens).map (Token.mapLine fun _ => ()) ∧
      whole.reporter.diagnostics.map Diagnostic.message =
        (lines.flatMap fun l => (scan l .silent).reporter.diagnostics).map Diagnostic.message := by
  intro w whole
  obtain ⟨ls, left, hcut, hread⟩ := exists_cut_of_lines ht hn hne
  have hls : ∀ l ∈ ls, Closed l := fun l hl => hc l (hread ▸ List.mem_append_left _ hl)
  obtain ⟨gs, hgs, hfound⟩ := exists_segmentation_of_cut hcut hls
  obtain ⟨hf, hf'⟩ := hfound 1
  have htok : withoutEnd whole.tokens = (lines.zipIdx 1).flatMap fun p => foundOn p.1 p.2 := by
    rw [(scan_of_segmentation hgs .silent).2.1, hf, ← flatMap_linesRead (fun _ => rfl), hread]
  have hdiag : whole.reporter.diagnostics =
      (lines.zipIdx 1).flatMap fun p => complaintsOn p.1 p.2 := by
    rw [diagnostics_scan_of_segmentation hgs, hf', ← flatMap_linesRead (fun _ => rfl), hread]
  refine ⟨?_, ?_, htok, hdiag, fun l hl => line_eq_one (hn l hl), ?_, ?_⟩
  · have hrun : runCommand w .prompt = _ := hcut.runCommand_eq
    rw [hread, beforeEmpty_of_not_mem hne] at hrun
    exact hrun
  · exact processes_process t
  · rw [htok]
    exact map_flatMap_zipIdx (fun l n => List.map_map) lines 1
  · rw [hdiag]
    exact map_flatMap_zipIdx (fun l n => List.map_map) lines 1

/-- A line that ends in a comment, and one with a character that begins nothing. -/
theorem prompt_agrees_after_comment :
    let t : Text := ['a', '/', '/', '"', '\n', '$', ')']
    let lines : List Text := [['a', '/', '/', '"'], ['$', ')']]
    (t = endedLines lines ∨ t ++ ['\n'] = endedLines lines) ∧ (∀ l ∈ lines, '\n' ∉ l) ∧
      [] ∉ lines ∧ (∀ l ∈ lines, Closed l) ∧
      runCommand ⟨t, false, [], [], []⟩ (.ofArguments []) = answering lines ∧
      withoutEnd (scan t .silent).tokens =
        [⟨.identifier, ['a'], .none, 1⟩, ⟨.rightParen, [')'], .none, 2⟩] ∧
      (scan t .silent).reporter.diagnostics = [.onLine 2 "Unexpected character.".toList] := by
  intro t lines
  have ht : t = endedLines lines ∨ t ++ ['\n'] = endedLines lines := Or.inr rfl
  have hn : ∀ l ∈ lines, '\n' ∉ l := by decide
  have hne : [] ∉ lines := by decide
  have hc : ∀ l ∈ lines, Closed l := by decide
  obtain ⟨hprompt, -, htok, hdiag, -⟩ := prompt_agrees t lines ⟨[], [], []⟩ ht hn hne hc
  exact ⟨ht, hn, hne, hc, hprompt, htok.trans (by decide), hdiag.trans (by decide)⟩

end BudgetLexer
