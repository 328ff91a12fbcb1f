import BudgetLexer.Proofs.CommandLine
import BudgetLexer.Proofs.Grammar.Exchange

/-!
# Line ends

A line may end in a carriage return and a newline. Where carriage returns stand nowhere else, a scan
finds the same as if only the newlines were there, but for the texts of strings. So it makes no
difference whether such a source is taken as it is or from a file, which is read with its line ends
made newlines.

* `Paired t`: each carriage return of `t` has a newline after it.
* `shortEnds`: the text with its line ends made short; on paired texts it takes out the carriage
  returns, `shortEnds_eq`.
* `Segmentation.stripped`: the segments of the text without carriage returns.
* **`scan_shortEnds`**: a scan of the text with short line ends, and the two ways to run it.
-/

namespace BudgetLexer

/-- **Each carriage return has a newline after it.** -/
def Paired : Text → Prop
  | [] => True
  | c :: t => (c = '\r' → t.head? = some '\n') ∧ Paired t

instance decidablePaired : (t : Text) → Decidable (Paired t)
  | [] => isTrue trivial
  | c :: t =>
    have := decidablePaired t
    inferInstanceAs (Decidable ((c = '\r' → t.head? = some '\n') ∧ Paired t))

/-- **The text with short line ends**: a newline for each carriage return and newline. -/
def shortEnds : Text → Text
  | [] => []
  | '\r' :: '\n' :: t => '\n' :: shortEnds t
  | c :: t => c :: shortEnds t

/-- The value with its text, if it is one, changed. -/
def Value.mapText (f : Text → Text) : Value → Value
  | .text t => .text (f t)
  | v => v

/-- The same token with its lexeme and the text of its literal changed. -/
def Token.mapText {Line : Type} (f : Text → Text) (t : Token Line) : Token Line :=
  { t with lexeme := f t.lexeme, literal := t.literal.mapText f }

theorem Value.mapText_of_ne {v : Value} (h : ∀ t, v ≠ .text t) (f : Text → Text) :
    v.mapText f = v := by
  cases v with
  | text t => exact absurd rfl (h t)
  | _ => rfl

/-- The text without its carriage returns. -/
def stripped (t : Text) : Text := t.filter (· ≠ '\r')

variable {t u rest b : Text} {c : Char} {g : Segment} {gs : List Segment} {line : Nat}

/-! ## Paired texts -/

theorem stripped_append (t u : Text) : stripped (t ++ u) = stripped t ++ stripped u :=
  List.filter_append ..

theorem stripped_cons_of_ne (hc : c ≠ '\r') (t : Text) : stripped (c :: t) = c :: stripped t :=
  List.filter_cons_of_pos (by simpa using hc)

theorem stripped_string (b : Text) :
    stripped ('"' :: (b ++ ['"'])) = '"' :: (stripped b ++ ['"']) :=
  congrArg ('"' :: ·) (stripped_append b _)

theorem stripped_of_not_mem (h : '\r' ∉ t) : stripped t = t :=
  List.filter_eq_self.2 fun c hc => by simpa using fun e : c = '\r' => h (e ▸ hc)

theorem newlines_stripped (t : Text) : Text.newlines (stripped t) = Text.newlines t :=
  List.count_filter (by decide)

theorem paired_of_not_mem (h : '\r' ∉ t) : Paired t := by
  induction t with
  | nil => trivial
  | cons c t ih =>
    obtain ⟨hc, ht⟩ := not_or.1 (mt List.mem_cons.2 h)
    exact ⟨fun e => absurd e.symm hc, ih ht⟩

namespace Paired

theorem of_append_right (h : Paired (t ++ u)) : Paired u := by
  induction t with
  | nil => exact h
  | cons c t ih => exact ih h.2

theorem of_append_left (h : Paired (t ++ u)) (hu : u.head? ≠ some '\n') : Paired t := by
  induction t with
  | nil => trivial
  | cons c t ih =>
    refine ⟨fun hc => ?_, ih h.2⟩
    have hh := h.1 hc
    cases t with
    | nil => exact absurd hh hu
    | cons d t => exact hh

theorem append (h : Paired t) (hu : Paired u) : Paired (t ++ u) := by
  induction t with
  | nil => exact hu
  | cons c t ih =>
    refine ⟨fun hc => ?_, ih h.2⟩
    change (t ++ u).head? = some '\n'
    rw [List.head?_append, h.1 hc, Option.some_or]

theorem head?_stripped (h : Paired t) (hc : (stripped t).head? = some c) :
    c = '\n' ∨ t.head? = some c := by
  cases t with
  | nil => cases hc
  | cons d t =>
    by_cases hd : d = '\r'
    · subst hd
      obtain ⟨r, rfl⟩ := List.head?_eq_some_iff.1 (h.1 rfl)
      exact Or.inl (Option.some.inj hc).symm
    · rw [stripped_cons_of_ne hd] at hc
      exact Or.inr hc

theorem ne_return (h : Paired (c :: t)) (hne : ∀ r, c = '\r' → t = '\n' :: r → False) :
    c ≠ '\r' := by
  intro hc
  obtain ⟨r, rfl⟩ := List.head?_eq_some_iff.1 (h.1 hc)
  exact hne r hc rfl

theorem shortEnds_eq (h : Paired t) : shortEnds t = stripped t := by
  fun_induction shortEnds t with
  | case1 => rfl
  | case2 t ih => exact congrArg _ (ih h.2.2)
  | case3 c t hne ih => rw [stripped_cons_of_ne (h.ne_return hne), ih h.2]

theorem unified_shortEnds (h : Paired t) : Unified t (shortEnds t) := by
  fun_induction shortEnds t with
  | case1 => exact .nil
  | case2 t ih => exact .pair (ih h.2.2)
  | case3 c t hne ih => exact .char (h.ne_return hne) (ih h.2)

end Paired

theorem shortEnds_cons_of_ne (hc : c ≠ '\r') (t : Text) : shortEnds (c :: t) = c :: shortEnds t := by
  rw [shortEnds]
  rintro r rfl
  exact absurd rfl hc

theorem shortEnds_of_not_mem (h : '\r' ∉ t) : shortEnds t = t := by
  rw [(paired_of_not_mem h).shortEnds_eq, stripped_of_not_mem h]

/-- **A paired text without its carriage returns may stand for the text**: what comes before sees no
more of it. -/
theorem Yields.stripped (h : Paired rest) : Yields rest (stripped rest) := by
  refine ⟨fun c hc => ?_, ?_, fun hn => ?_⟩
  · refine (h.head?_stripped hc).imp_left ?_
    rintro rfl
    decide
  · rintro ⟨c, r, e, hc⟩
    obtain ⟨r', rfl⟩ : ∃ r', rest = '.' :: r' :=
      List.head?_eq_some_iff.1 ((h.head?_stripped (by rw [e]; rfl)).resolve_left (by decide))
    rw [stripped_cons_of_ne (by decide)] at e
    have hr : (BudgetLexer.stripped r').head? = some c := by rw [(List.cons.inj e).2]; rfl
    have hn : c ≠ '\n' := by
      rintro rfl
      exact absurd hc (by decide)
    obtain ⟨r'', rfl⟩ := List.head?_eq_some_iff.1 ((h.2.head?_stripped hr).resolve_left hn)
    exact ⟨c, r'', rfl, hc⟩
  · obtain ⟨r, rfl⟩ := List.head?_eq_some_iff.1 hn
    rw [stripped_cons_of_ne (by decide)]
    rfl

/-- To take out the carriage returns does not close a comment, since a newline stays in each place. -/
theorem not_infix_stripped (hb : Paired b) (h : ¬ ['*', '/'] <:+: b) : ¬ ['*', '/'] <:+: stripped b := by
  induction b with
  | nil => exact h
  | cons c b ih =>
    obtain ⟨hc, h'⟩ := not_or.1 (mt Extent.infix_cons_iff.2 h)
    by_cases hr : c = '\r'
    · rw [hr]
      exact ih hb.2 h'
    · rw [stripped_cons_of_ne hr, Extent.infix_cons_iff, not_or]
      refine ⟨fun ⟨hs, hd⟩ => hc ⟨hs, ?_⟩, ih hb.2 h'⟩
      exact (hb.2.head?_stripped hd).resolve_left (by decide)

/-! ## Segments without carriage returns -/

/-- The segment without its carriage returns. -/
def Segment.stripped (g : Segment) : Segment := ⟨g.form, BudgetLexer.stripped g.text⟩

/-- The segments without their carriage returns. A carriage return that is a blank is left out. -/
def strippedSegments (gs : List Segment) : List Segment :=
  gs.flatMap fun g => if g.text = ['\r'] then [] else [g.stripped]

namespace Segment

theorem Fits.return_not_mem (hg : g.Fits rest) (hf : g.form.mayHoldBlank = false) :
    '\r' ∉ g.text :=
  hg.blank_not_mem hf (by decide)

theorem stripped_of_not_mem (h : '\r' ∉ g.text) : g.stripped = g := by
  rw [stripped, BudgetLexer.stripped_of_not_mem h]

theorem Fits.eq_blank (hg : g.Fits rest) (h : g.text = ['\r']) : g = ⟨.blank, ['\r']⟩ := by
  have hb : Fits ⟨.blank, ['\r']⟩ rest := .blank (by decide)
  exact (hg.unique hb (by rw [h])).1

/-- **A segment without its carriage returns fits** where what follows has none either. -/
theorem Fits.stripped (hg : g.Fits rest) (hp : Paired (g.text ++ rest)) (hne : g.text ≠ ['\r']) :
    g.stripped.Fits (BudgetLexer.stripped rest) := by
  have hy : Yields rest (BudgetLexer.stripped rest) := .stripped hp.of_append_right
  cases hf : g.form.mayHoldBlank with
  | false =>
    rw [stripped_of_not_mem (hg.return_not_mem hf)]
    refine hg.exchange hy ?_
    rintro rfl
    exact g.ends_nil
  | true =>
    cases hg with
    | lineComment hb hr =>
      refine .lineComment (fun hm => hb (List.mem_filter.1 hm).1) ?_
      rcases hr with rfl | hr
      · exact Or.inl rfl
      · exact Or.inr (hy.newline hr)
    | @blockComment b rest hb =>
      have hall : Paired (b ++ ('*' :: '/' :: rest)) := by simpa using hp.2.2
      have e : BudgetLexer.stripped ('/' :: '*' :: (b ++ ['*', '/'])) =
          '/' :: '*' :: (BudgetLexer.stripped b ++ ['*', '/']) :=
        congrArg (fun t => '/' :: '*' :: t) (stripped_append b _)
      rw [Segment.stripped, e]
      exact .blockComment (not_infix_stripped (hall.of_append_left (by simp)) hb)
    | openComment hb => exact .openComment (not_infix_stripped (by simpa using hp.2.2) hb)
    | blank h =>
      rw [Segment.stripped, BudgetLexer.stripped_of_not_mem (by simpa [eq_comm] using hne)]
      exact .blank h
    | @string b _ hb =>
      rw [Segment.stripped, stripped_string]
      exact .string fun hm => hb (List.mem_filter.1 hm).1
    | openString hb => exact .openString fun hm => hb (List.mem_filter.1 hm).1
    | _ => cases hf

theorem literal_ne_text {v : Token Nat} (hf : g.form.mayHoldBlank = false)
    (h : g.token? line = some v) (t : Text) : v.literal ≠ .text t := by
  obtain ⟨form, u⟩ := g
  cases form with
  | mark | longOperator | operator | slash | number =>
    obtain ⟨_, -, rfl⟩ := Option.map_eq_some_iff.1 h
    exact Value.noConfusion
  | word => exact Option.some.inj h ▸ Value.noConfusion
  | string => cases hf
  | _ => cases h

theorem paired_string (h : Paired ('"' :: (b ++ ['"']) ++ rest)) :
    Paired b ∧ Paired ('"' :: (b ++ ['"'])) := by
  have hall : Paired (b ++ ('"' :: rest)) := by simpa using h.2
  have hb : Paired b := hall.of_append_left (by simp)
  exact ⟨hb, fun e => absurd e (by decide), hb.append (paired_of_not_mem (by decide))⟩

theorem Fits.paired_token {v : Token Nat} (hg : g.Fits rest) (hp : Paired (g.text ++ rest))
    (h : g.token? line = some v) :
    Paired v.lexeme ∧ ∀ t, v.literal = .text t → Paired t := by
  rw [(eq_of_token?_eq_some h).1]
  cases hf : g.form.mayHoldBlank with
  | false =>
    exact ⟨paired_of_not_mem (hg.return_not_mem hf), fun t ht =>
      absurd ht (literal_ne_text hf h t)⟩
  | true =>
    cases hg with
    | @string b rest hb =>
      obtain ⟨hbody, htext⟩ := paired_string hp
      obtain rfl := Option.some.inj h
      refine ⟨htext, fun t ht => ?_⟩
      obtain rfl : (b ++ ['"']).dropLast = t := Value.text.inj ht
      rwa [List.dropLast_concat]
    | lineComment | blockComment | openComment | blank | openString => cases h
    | _ => cases hf

theorem Fits.token?_stripped (hg : g.Fits rest) (hp : Paired (g.text ++ rest)) (line : Nat) :
    g.stripped.token? line = (g.token? line).map (Token.mapText shortEnds) := by
  cases hf : g.form.mayHoldBlank with
  | false =>
    have hm := hg.return_not_mem hf
    rw [stripped_of_not_mem hm]
    cases ht : g.token? line with
    | none => rfl
    | some v =>
      have hl : v.lexeme = g.text := (eq_of_token?_eq_some ht).1
      rw [Option.map_some, Token.mapText, Value.mapText_of_ne (literal_ne_text hf ht),
        shortEnds_of_not_mem (hl ▸ hm)]
  | true =>
    cases hg with
    | @string b rest hb =>
      obtain ⟨hbody, htext⟩ := paired_string hp
      simp [Segment.stripped, token?, Token.mapText, Value.mapText, htext.shortEnds_eq,
        hbody.shortEnds_eq, stripped_string]
    | lineComment | blockComment | openComment | blank | openString => rfl
    | _ => cases hf

theorem diagnostic?_stripped (g : Segment) (line : Nat) :
    g.stripped.diagnostic? line = g.diagnostic? line := by
  obtain ⟨f, t⟩ := g
  cases f with
  | openString =>
    change some (Diagnostic.onLine (line + Text.newlines (BudgetLexer.stripped t)) _) = _
    rw [newlines_stripped]
    rfl
  | _ => rfl

end Segment

/-- **The text without carriage returns has the segments without them.** -/
theorem Segmentation.stripped (h : Segmentation t gs) (hp : Paired t) :
    Segmentation (stripped t) (strippedSegments gs) := by
  induction h with
  | nil => exact .nil
  | @cons g rest gs hg _ ih =>
    have hrest := ih hp.of_append_right
    rw [stripped_append, strippedSegments, List.flatMap_cons]
    split
    · next hr =>
      rw [hr]
      exact hrest
    · next hr => exact .cons (hg.stripped hp hr) hrest

theorem tokensOf_stripped (h : Segmentation t gs) (hp : Paired t) (line : Nat) :
    tokensOf line (strippedSegments gs) = (tokensOf line gs).map (Token.mapText shortEnds) ∧
      diagnosticsOf line (strippedSegments gs) = diagnosticsOf line gs := by
  induction h generalizing line with
  | nil => exact ⟨rfl, rfl⟩
  | @cons g rest gs hg _ ih =>
    obtain ⟨htok, hdiag⟩ := ih hp.of_append_right (line + Text.newlines g.text)
    rw [strippedSegments, List.flatMap_cons]
    split
    · next hr =>
      -- the carriage return is a blank, so there is nothing for it to give
      obtain rfl := hg.eq_blank hr
      exact ⟨htok, hdiag⟩
    · have hl : Text.newlines g.stripped.text = Text.newlines g.text := newlines_stripped g.text
      rw [List.singleton_append, tokensOf, tokensOf, diagnosticsOf, diagnosticsOf, hl,
        List.map_append, hg.token?_stripped hp, g.diagnostic?_stripped, Option.toList_map]
      exact ⟨congrArg _ htok, congrArg _ hdiag⟩

/-! ## What is written -/

theorem shortEnds_append (h : Paired t) (hu : Paired u) :
    shortEnds (t ++ u) = shortEnds t ++ shortEnds u := by
  rw [(h.append hu).shortEnds_eq, h.shortEnds_eq, hu.shortEnds_eq, stripped_append]

theorem Value.return_not_mem_toText {v : Value} (h : ∀ t, v ≠ .text t) : '\r' ∉ v.toText := by
  cases v with
  | none => decide
  | bool b => cases b <;> decide
  | int n =>
    have hd : ∀ n : Nat, '\r' ∉ digitsOf n := fun n hm =>
      absurd (isDigit_of_mem_digitsOf hm) (by decide)
    rw [toText, integerText]
    split
    · exact List.not_mem_cons_of_ne_of_not_mem (by decide) (hd _)
    · exact hd _
  | float x =>
    intro hm
    rcases Binary64.mem_text hm with (h | h) | h | h
    · exact absurd h (by decide)
    · exact absurd h (by decide)
    · exact absurd h (by decide)
    · exact absurd h (by decide)
  | text t => exact absurd rfl (h t)

theorem Value.toText_mapText (v : Value) : (v.mapText shortEnds).toText = shortEnds v.toText := by
  by_cases h : ∃ t, v = .text t
  · obtain ⟨t, rfl⟩ := h
    rfl
  · have hne := not_exists.1 h
    rw [mapText_of_ne hne, shortEnds_of_not_mem (return_not_mem_toText hne)]

theorem Value.paired_toText {v : Value} (h : ∀ t, v = .text t → Paired t) : Paired v.toText := by
  by_cases ht : ∃ t, v = .text t
  · obtain ⟨t, rfl⟩ := ht
    exact h t rfl
  · exact paired_of_not_mem (return_not_mem_toText (not_exists.1 ht))

theorem paired_of_mem_tokensOf (h : Segmentation t gs) (hp : Paired t) (line : Nat) :
    ∀ v ∈ tokensOf line gs, Paired v.lexeme ∧ ∀ t, v.literal = .text t → Paired t := by
  induction h generalizing line with
  | nil =>
    intro v hv
    obtain rfl := List.mem_singleton.1 hv
    exact ⟨trivial, fun t ht => by cases ht⟩
  | @cons g rest gs hg _ ih =>
    intro v hv
    rcases List.mem_append.1 hv with hv | hv
    · exact hg.paired_token hp (Option.mem_toList.1 hv)
    · exact ih hp.of_append_right _ v hv

theorem Token.text_mapText {v : Token Nat} (hl : Paired v.lexeme) (hv : Paired v.literal.toText) :
    Paired v.text ∧ (v.mapText shortEnds).text = shortEnds v.text := by
  have hname : '\r' ∉ v.kind.name.toList := fun hm =>
    absurd (Kind.isWord_of_mem_name hm) (by decide)
  have hn := paired_of_not_mem hname
  have hv' : Paired (' ' :: v.literal.toText) := ⟨fun e => absurd e (by decide), hv⟩
  have hl' : Paired (' ' :: (v.lexeme ++ ' ' :: v.literal.toText)) :=
    ⟨fun e => absurd e (by decide), hl.append hv'⟩
  refine ⟨hn.append hl', ?_⟩
  rw [text, text, shortEnds_append hn hl', shortEnds_of_not_mem hname,
    shortEnds_cons_of_ne (by decide), shortEnds_append hl hv', shortEnds_cons_of_ne (by decide),
    ← v.literal.toText_mapText]
  rfl

/-- **The lines of tokens with short line ends** are their lines with short line ends. -/
theorem tokenLines_mapText {ts : List (Token Nat)}
    (h : ∀ v ∈ ts, Paired v.lexeme ∧ ∀ t, v.literal = .text t → Paired t) :
    Paired (tokenLines ts) ∧
      tokenLines (ts.map (Token.mapText shortEnds)) = shortEnds (tokenLines ts) := by
  induction ts with
  | nil => exact ⟨trivial, rfl⟩
  | cons v ts ih =>
    obtain ⟨hp, e⟩ := ih fun u hu => h u (List.mem_cons_of_mem _ hu)
    obtain ⟨hl, hv⟩ := h v List.mem_cons_self
    obtain ⟨ht, ht'⟩ := Token.text_mapText hl (Value.paired_toText hv)
    have hp' : Paired ('\n' :: tokenLines ts) := ⟨fun e => absurd e (by decide), hp⟩
    rw [List.map_cons, tokenLines_cons, tokenLines_cons, shortEnds_append ht hp',
      shortEnds_cons_of_ne (by decide), ht', e]
    exact ⟨ht.append hp', rfl⟩

/-! ## The law -/

theorem scan_of_paired {s : Text} (hs : Paired s) (reporter : Reporter) :
    (scan (shortEnds s) reporter).tokens =
        (scan s reporter).tokens.map (Token.mapText shortEnds) ∧
      (scan (shortEnds s) reporter).reporter = (scan s reporter).reporter ∧
      tokenLines (scan (shortEnds s) reporter).tokens =
        shortEnds (tokenLines (scan s reporter).tokens) := by
  obtain ⟨gs, h, -⟩ := existsUnique_segmentation s
  obtain ⟨-, htok, hrep⟩ := scan_of_segmentation h reporter
  obtain ⟨-, htok', hrep'⟩ := scan_of_segmentation (h.stripped hs) reporter
  obtain ⟨ht, hd⟩ := tokensOf_stripped h hs 1
  rw [hs.shortEnds_eq, htok, htok', hrep, hrep', ht, hd]
  exact ⟨rfl, rfl, (tokenLines_mapText (paired_of_mem_tokensOf h hs 1)).2⟩

theorem process_shortEnds {s : Text} (hs : Paired s) :
    process (shortEnds s) = { process s with stdout := shortEnds (process s).stdout } := by
  obtain ⟨-, hrep, hlines⟩ := scan_of_paired hs {}
  rw [process, process]
  dsimp only
  rw [hrep, hlines]

/-- **Line ends.** Where every carriage return stands before a newline, the scan of the text with short
line ends finds the same tokens on the same lines, with the same numbers and with short line ends in
the texts of strings, and reports the same. So a source gives the same from standard input, which keeps
its line ends, and from a file, which does not, but for the line ends in what is printed. -/
theorem scan_shortEnds (s : Text) (reporter : Reporter) (hs : Paired s) :
    (scan (shortEnds s) reporter).tokens =
        (scan s reporter).tokens.map (Token.mapText shortEnds) ∧
      (scan (shortEnds s) reporter).reporter = (scan s reporter).reporter ∧
      ∀ (tree : FileTree) (p : Text), tree.find (.ofText p) = .file (List.utf8Encode s) →
        let w : Surroundings := ⟨s, false, tree⟩
        let given := runCommand w (.ofArguments ["run".toList, ['-']])
        Processes s given ∧ runCommand w (.ofArguments ["run_file".toList, p]) =
          { given with stdout := shortEnds given.stdout } := by
  obtain ⟨htok, hrep, -⟩ := scan_of_paired hs reporter
  refine ⟨htok, hrep, fun tree p hp => ?_⟩
  intro w given
  have hgiven : given = process s := rfl
  refine ⟨hgiven ▸ processes_process s, ?_⟩
  rw [ofArguments_run_file, runCommand_file, show w.tree.find _ = _ from hp, processFile_utf8Encode,
    ← hs.unified_shortEnds.eq, process_shortEnds hs, hgiven]

/-- A line end in a string, and a complaint on the line after it. -/
theorem scan_shortEnds_in_string :
    let s : Text := ['"', '\r', '\n', '"', '$', '\r', '\n']
    let w : Surroundings := ⟨s, false, [], [([['f']], List.utf8Encode s)], []⟩
    Paired s ∧
      (scan (shortEnds s) .silent).tokens = (scan s .silent).tokens.map (Token.mapText shortEnds) ∧
      runCommand w (.ofArguments ["run".toList, ['-']]) =
        { stdout := "STRING \"\r\n\" \r\n\nEOF  None\n".toList,
          stderr := "Error [Line 2]: Unexpected character.\n".toList, ending := .exit 65 } ∧
      runCommand w (.ofArguments ["run_file".toList, ['f']]) =
        { stdout := "STRING \"\n\" \n\nEOF  None\n".toList,
          stderr := "Error [Line 2]: Unexpected character.\n".toList, ending := .exit 65 } := by
  intro s w
  have hs : Paired s := by decide
  have hgiven : runCommand w (.ofArguments ["run".toList, ['-']]) =
      { stdout := "STRING \"\r\n\" \r\n\nEOF  None\n".toList,
        stderr := "Error [Line 2]: Unexpected character.\n".toList, ending := .exit 65 } :=
    show process ['"', '\r', '\n', '"', '$', '\r', '\n'] = _ from rfl
  obtain ⟨htok, -, hrun⟩ := scan_shortEnds s .silent hs
  have hfile := (hrun w.tree ['f'] rfl).2
  refine ⟨hs, htok, hgiven, hfile.trans ?_⟩
  rw [hgiven]
  rfl

end BudgetLexer
