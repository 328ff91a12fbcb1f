import BudgetLexer.Proofs.CommandLine

/-!
# The prompt

The prompt reads a line, answers it with a fresh scan, and forgets. It has one reporter for all lines
and three ways to end; what it writes is all the same the answers to the lines before the first empty
one, each by itself.

* `Cut t lines left`: the lines of a text that end in a newline, and what is left; `existsUnique_cut`.
* `linesRead`, `beforeEmpty`: the lines that are read, and those of them that are answered.
* `promptAnswer?_eq`, `prompt_eq`: one answer, and all of them.
* `line_eq_one`: the tokens and the diagnostics of a line are on line 1.
* **`prompt_run`**: the outcome of a run of the prompt.
-/

namespace BudgetLexer

/-! ## Lines -/

/-- The lines, each with a newline after it. -/
def endedLines (lines : List Text) : Text := lines.flatMap (· ++ ['\n'])

/-- **The text is cut into its lines** that end in a newline, and what is left after the last of
them. -/
structure Cut (t : Text) (lines : List Text) (left : Text) : Prop where
  eq : t = endedLines lines ++ left
  lines : ∀ l ∈ lines, '\n' ∉ l
  left : '\n' ∉ left

variable {t left : Text} {lines : List Text}

theorem endedLines_cons_append (l : Text) (lines : List Text) (t : Text) :
    endedLines (l :: lines) ++ t = l ++ '\n' :: (endedLines lines ++ t) := by
  simp [endedLines]

theorem Cut.split_eq (h : Cut t lines left) : Text.split '\n' t = lines ++ [left] := by
  obtain ⟨rfl, hlines, hleft⟩ := h
  induction lines with
  | nil => exact Text.split_of_not_mem hleft
  | cons l lines ih =>
    rw [endedLines_cons_append, Text.split_append_cons (hlines l List.mem_cons_self),
      ih fun l' hl' => hlines l' (List.mem_cons_of_mem _ hl'), List.cons_append]

theorem exists_cut (t : Text) : ∃ lines left, Cut t lines left := by
  induction t with
  | nil => exact ⟨[], [], rfl, by simp, by simp⟩
  | cons c t ih =>
    obtain ⟨lines, left, rfl, hlines, hleft⟩ := ih
    by_cases hc : c = '\n'
    · subst hc
      exact ⟨[] :: lines, left, rfl, by simpa using hlines, hleft⟩
    · have hc' : '\n' ≠ c := fun e => hc e.symm
      cases lines with
      | nil => exact ⟨[], c :: left, rfl, by simp, by simpa [hc'] using hleft⟩
      | cons l lines =>
        refine ⟨(c :: l) :: lines, left, rfl, ?_, hleft⟩
        simpa [hc'] using hlines

theorem existsUnique_cut (t : Text) :
    ∃ lines left, ∀ ls l, Cut t ls l ↔ ls = lines ∧ l = left := by
  obtain ⟨lines, left, h⟩ := exists_cut t
  refine ⟨lines, left, fun ls l => ⟨fun h' => ?_, ?_⟩⟩
  · have e := h'.split_eq.symm.trans h.split_eq
    exact ⟨List.append_inj_left' e rfl, List.singleton_inj.1 (List.append_inj_right' e rfl)⟩
  · rintro ⟨rfl, rfl⟩
    exact h

/-- The lines that the prompt reads: those that are ended and, unless reading is interrupted, what is
left after them. -/
def linesRead (interrupted : Bool) (lines : List Text) (left : Text) : List Text :=
  lines ++ if interrupted = true ∨ left = [] then [] else [left]

theorem Cut.promptLines_eq (h : Cut t lines left) (interrupted : Bool) :
    promptLines interrupted t = linesRead interrupted lines left := by
  have e : promptLines interrupted t = (Text.split '\n' t).dropLast ++
      if interrupted then [] else (Text.split '\n' t).getLast?.toList.filter (· ≠ []) := rfl
  rw [e, h.split_eq, List.dropLast_concat, List.getLast?_concat, linesRead]
  cases interrupted with
  | true => rfl
  | false => by_cases hl : left = [] <;> simp [hl]

theorem Cut.newline_not_mem (h : Cut t lines left) (interrupted : Bool) :
    ∀ l ∈ linesRead interrupted lines left, '\n' ∉ l := by
  intro l hl
  rcases List.mem_append.1 hl with hl | hl
  · exact h.lines l hl
  · split at hl
    · cases hl
    · exact List.mem_singleton.1 hl ▸ h.left

/-- The lines before the first empty one. -/
def beforeEmpty (lines : List Text) : List Text := lines.takeWhile (· ≠ [])

theorem beforeEmpty_cons {l : Text} (h : l ≠ []) (lines : List Text) :
    beforeEmpty (l :: lines) = l :: beforeEmpty lines := List.takeWhile_cons_of_pos (by simpa using h)

theorem beforeEmpty_of_not_mem (h : [] ∉ lines) : beforeEmpty lines = lines := by
  induction lines with
  | nil => rfl
  | cons l lines ih =>
    obtain ⟨hl, hlines⟩ := not_or.1 (mt List.mem_cons.2 h)
    rw [beforeEmpty_cons fun e => hl e.symm, ih hlines]

theorem beforeEmpty_append (lines more : List Text) :
    beforeEmpty (lines ++ [] :: more) = beforeEmpty lines := by
  induction lines with
  | nil => rfl
  | cons l lines ih =>
    by_cases hl : l = []
    · subst hl
      rfl
    · rw [List.cons_append, beforeEmpty_cons hl, beforeEmpty_cons hl, ih]

/-! ## Answers -/

variable {r : Reporter} {line : Text}

/-- **The answer to a line** is that of a fresh scan. The reporter holds nothing after it. -/
theorem promptAnswer?_eq (h : line ≠ []) (r : Reporter) : promptAnswer? r line =
    some (tokenLines (scan line .silent).tokens, { r with
      diagnostics := []
      printed := r.printed ++
        if r.quiet then [] else (scan line .silent).reporter.diagnostics }) := by
  obtain ⟨htok, hrep⟩ := r.scan_eq_fresh line
  rw [promptAnswer?, if_neg h]
  dsimp only
  rw [htok, hrep, Reporter.reportAll_eq]
  rfl

/-- **All the answers**: those to the lines before the first empty one. -/
theorem prompt_eq (hq : r.quiet = false) (hd : r.diagnostics = []) (lines : List Text) :
    prompt r lines =
      ((beforeEmpty lines).flatMap (fun l => promptMark ++ tokenLines (scan l .silent).tokens) ++
          promptMark,
        { r with printed := r.printed ++
            (beforeEmpty lines).flatMap fun l => (scan l .silent).reporter.diagnostics }) := by
  induction lines generalizing r with
  | nil => simp [prompt, beforeEmpty]
  | cons line lines ih =>
    rw [prompt]
    by_cases h : line = []
    · subst h
      simp [promptAnswer?, beforeEmpty]
    · rw [promptAnswer?_eq h, beforeEmpty_cons h, hq]
      dsimp only
      rw [ih rfl rfl]
      simp [hd]

/-! ## Lines by themselves -/

theorem Segment.line_of_diagnostic? {g : Segment} {n : Nat} {d : Diagnostic}
    (h : g.diagnostic? n = some d) (hg : '\n' ∉ g.text) : d.line = .int n := by
  obtain ⟨f, t⟩ := g
  cases f with
  | stray => exact Option.some.inj h ▸ rfl
  | openString =>
    rw [diagnostic?, Scanner.newlines_eq_zero hg] at h
    exact Option.some.inj h ▸ rfl
  | _ => cases h

theorem lines_of_newline_free {gs : List Segment} {n : Nat} (h : '\n' ∉ gs.flatMap Segment.text) :
    (∀ t ∈ tokensOf n gs, t.line = n) ∧ ∀ d ∈ diagnosticsOf n gs, d.line = .int n := by
  induction gs with
  | nil => simp [tokensOf, diagnosticsOf]
  | cons g gs ih =>
    rw [List.flatMap_cons, List.mem_append, not_or] at h
    obtain ⟨htok, hdiag⟩ := ih h.2
    rw [tokensOf, diagnosticsOf, Scanner.newlines_eq_zero h.1]
    constructor
    · intro t ht
      rcases List.mem_append.1 ht with ht | ht
      · exact (Segment.eq_of_token?_eq_some (Option.mem_toList.1 ht)).2
      · exact htok t ht
    · intro d hd
      rcases List.mem_append.1 hd with hd | hd
      · exact Segment.line_of_diagnostic? (Option.mem_toList.1 hd) h.1
      · exact hdiag d hd

/-- **All that a scan of a line finds is on line 1.** -/
theorem line_eq_one (h : '\n' ∉ line) :
    (∀ t ∈ (scan line .silent).tokens, t.line = 1) ∧
      ∀ d ∈ (scan line .silent).reporter.diagnostics, d.line = .int 1 := by
  obtain ⟨gs, hs, -⟩ := existsUnique_segmentation line
  rw [← hs.flatMap_text] at h
  rw [(scan_of_segmentation hs .silent).2.1, diagnostics_scan_of_segmentation hs]
  exact lines_of_newline_free h

/-! ## Runs -/

/-- **The outcome of answering lines**, each by a fresh scan after the mark, and showing the mark once
more. -/
def answering (lines : List Text) : Outcome where
  stdout := (lines.flatMap fun l =>
    promptMark ++ (scan l .silent).tokens.flatMap fun t => t.text ++ ['\n']) ++ promptMark
  stderr := lines.flatMap fun l =>
    (scan l .silent).reporter.diagnostics.flatMap fun d => d.text ++ ['\n']
  ending := .exit 0

theorem runCommand_prompt (w : Surroundings) : runCommand w .prompt =
    { stdout := (prompt {} (promptLines w.interrupted w.input)).1
      stderr := diagnosticLines (prompt {} (promptLines w.interrupted w.input)).2.printed
      ending := .exit 0 } := rfl

theorem Cut.runCommand_eq {w : Surroundings} (h : Cut w.input lines left) :
    runCommand w .prompt = answering (beforeEmpty (linesRead w.interrupted lines left)) := by
  rw [runCommand_prompt, h.promptLines_eq, prompt_eq rfl rfl, answering, diagnosticLines,
    List.nil_append, List.flatMap_assoc]
  rfl

theorem Cut.append {u : Text} {us : List Text} (h : Cut t lines []) (hu : Cut u us left) :
    Cut (t ++ u) (lines ++ us) left := by
  obtain ⟨rfl, hlines, -⟩ := h
  obtain ⟨rfl, hus, hleft⟩ := hu
  refine ⟨by simp [endedLines], fun l hl => ?_, hleft⟩
  rcases List.mem_append.1 hl with hl | hl
  · exact hlines l hl
  · exact hus l hl

theorem exists_cut_nil (ht : t = [] ∨ t.getLast? = some '\n') : ∃ lines, Cut t lines [] := by
  obtain ⟨lines, left, h⟩ := exists_cut t
  suffices left = [] from ⟨lines, this ▸ h⟩
  rcases ht with rfl | ht
  · exact (List.append_eq_nil_iff.1 h.eq.symm).2
  · by_cases hl : left = []
    · exact hl
    · have hlast : t.getLast? = left.getLast? := by
        rw [h.eq, List.getLast?_append, List.getLast?_eq_some_getLast hl, Option.some_or]
      exact absurd (List.mem_of_getLast? (hlast.symm.trans ht)) h.left

/-- **Nothing counts after an empty line.** -/
theorem Cut.runCommand_eq_of_empty (h : Cut t lines []) (after : Text) (interrupted : Bool)
    (tree : FileTree) : runCommand ⟨t ++ '\n' :: after, interrupted, tree⟩ .prompt =
      answering (beforeEmpty lines) := by
  obtain ⟨us, left, hu⟩ := exists_cut after
  have hempty : Cut ('\n' :: after) ([] :: us) left :=
    ⟨congrArg _ hu.eq, by simpa using hu.lines, hu.left⟩
  rw [(h.append hempty).runCommand_eq, linesRead, List.append_assoc, List.cons_append,
    beforeEmpty_append]

/-! ## The law -/

/-- **The prompt.** Its input is cut into lines in one way. It answers the lines before the first empty
one, each with the tokens of a fresh scan after a mark, and shows the mark once more; the complaints of
these scans are on standard error, all about line 1; and the run succeeds whatever they are. What
comes after an empty line does not matter, nor does how reading would end there. -/
theorem prompt_run (w : Surroundings) :
    ∃ lines left, (∀ ls l, Cut w.input ls l ↔ ls = lines ∧ l = left) ∧
      let answered := beforeEmpty (linesRead w.interrupted lines left)
      runCommand w (.ofArguments []) = answering answered ∧
      runCommand w (.ofArguments ["run_prompt".toList]) = answering answered ∧
      (∀ l ∈ answered, ∀ d ∈ (scan l .silent).reporter.diagnostics, d.line = .int 1) ∧
      ∀ t after, w.input = t ++ '\n' :: after → (t = [] ∨ t.getLast? = some '\n') →
        ∀ after' interrupted tree, runCommand ⟨t ++ '\n' :: after', interrupted, tree⟩
          (.ofArguments []) = answering answered := by
  obtain ⟨lines, left, h⟩ := existsUnique_cut w.input
  have hcut : Cut w.input lines left := (h _ _).2 ⟨rfl, rfl⟩
  have hrun := hcut.runCommand_eq
  have hfree : ∀ l ∈ beforeEmpty (linesRead w.interrupted lines left), '\n' ∉ l :=
    fun l hl => hcut.newline_not_mem _ l ((List.takeWhile_sublist _).subset hl)
  refine ⟨lines, left, h, hrun, hrun, fun l hl => (line_eq_one (hfree l hl)).2, ?_⟩
  intro t after hinput ht after' interrupted tree
  obtain ⟨ls, hls⟩ := exists_cut_nil ht
  have hw : runCommand w .prompt = answering (beforeEmpty ls) := by
    obtain ⟨input, i, files⟩ := w
    obtain rfl : input = _ := hinput
    exact hls.runCommand_eq_of_empty after i files
  rw [← hrun, hw]
  exact hls.runCommand_eq_of_empty after' interrupted tree

/-- Reading is interrupted in the fourth line. The second one is empty, so that neither this nor the
third one counts; and the string that the first one leaves open does not go on. -/
theorem prompt_run_after_open_string :
    let w : Surroundings := ⟨['"', '\n', '\n', '$', '\n', '"'], true, [], [], []⟩
    let o := runCommand w (.ofArguments [])
    o = { stdout := "> EOF  None\n> ".toList
          stderr := "Error [Line 1]: Unterminated string.\n".toList
          ending := .exit 0 } ∧
      (∀ d ∈ (scan ['"'] .silent).reporter.diagnostics, d.line = .int 1) ∧
      runCommand ⟨['"', '\n', '\n', ')'], false, [], [], []⟩ (.ofArguments []) = o := by
  intro w o
  obtain ⟨lines, left, hcut, hrun, -, hline, hafter⟩ := prompt_run w
  obtain ⟨rfl, rfl⟩ := (hcut [['"'], [], ['$']] ['"']).1 ⟨rfl, by decide, by decide⟩
  refine ⟨hrun.trans rfl, hline ['"'] (by decide), ?_⟩
  exact (hafter ['"', '\n'] ['$', '\n', '"'] rfl (Or.inr rfl) [')'] false ⟨[], [], []⟩).trans hrun.symm

end BudgetLexer
