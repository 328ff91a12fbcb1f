import BudgetLexer.Proofs.Recovery

/-!
# Comments

A comment counts for as much as the blanks that would fill its place: a scan of the source with spaces
where the comments were, their newlines kept, finds the same tokens and the same errors on the same
lines. What looks like a comment in a string stays, and so does what looks like anything in a comment.

* `CommentAt source i j`: a comment stands at the positions from `i` up to `j`.
* `Scanner.meetsComment`: a comment begins at the cursor; `meetsComment_iff` says how far it reaches.
* **`scan_uncommented`**: the scan of a source without its comments.
-/

namespace BudgetLexer

/-- **A comment stands at the positions from `i` up to `j`**: two slashes and what follows them on the
line, or a slash, a star and what follows them up to the first star and slash, or to the end. -/
inductive CommentAt (source : Text) (i j : Nat) : Prop
  | line {b} (h : Text.slice source i j = '/' :: '/' :: b) (hb : '\n' ∉ b)
    (hj : ∀ c ∈ source[j]?, c = '\n')
  | block {b} (h : Text.slice source i j = '/' :: '*' :: (b ++ ['*', '/']))
    (hb : ¬ ['*', '/'] <:+: b)
  | unclosed {b} (h : Text.slice source i j = '/' :: '*' :: b) (hb : ¬ ['*', '/'] <:+: b)
    (hj : j = source.length)

/-- The text begins as a comment does. -/
def opensComment (t : Text) : Bool := ['/', '/'].isPrefixOf t || ['/', '*'].isPrefixOf t

/-- **A comment begins at the cursor**, where a turn begins. -/
def Scanner.meetsComment (x : Scanner) : Bool := opensComment x.rest

/-- The forms of comments. -/
def Form.isComment : Form → Bool
  | .lineComment | .blockComment => true
  | _ => false

variable {P : Form → Bool} {g : Segment} {gs : List Segment} {rest t u : Text} {c : Char}
  {x : Scanner}

/-! ## Segments that are comments -/

theorem Form.isToken_of_isComment {f : Form} (h : f.isComment = true) : f.isToken = false := by
  cases f with
  | lineComment | blockComment => rfl
  | _ => cases h

theorem Form.isError_of_isComment {f : Form} (h : f.isComment = true) : f.isError = false := by
  cases f with
  | lineComment | blockComment => rfl
  | _ => cases h

theorem opensComment_of_ne (h : c ≠ '/') (t : Text) : opensComment (c :: t) = false := by
  simp [opensComment, List.isPrefixOf, h.symm]

theorem opensComment_append (h : opensComment t = true) (u : Text) :
    opensComment (t ++ u) = true := by
  simp only [opensComment, Bool.or_eq_true, List.isPrefixOf_iff_prefix] at h ⊢
  exact h.imp (·.trans (List.prefix_append t u)) (·.trans (List.prefix_append t u))

theorem opensComment_slash (h : t.head? ≠ some '/') (h' : t.head? ≠ some '*') :
    opensComment ('/' :: t) = false := by
  cases t with
  | nil => rfl
  | cons d t =>
    have hd : d ≠ '/' := fun e => h (e ▸ rfl)
    have hd' : d ≠ '*' := fun e => h' (e ▸ rfl)
    simp [opensComment, List.isPrefixOf, hd.symm, hd'.symm]

/-- **A segment is a comment exactly when the text begins as one there.** -/
theorem Segment.Fits.opensComment_eq (hg : g.Fits rest) :
    opensComment (g.text ++ rest) = g.form.isComment := by
  cases hg with
  | lineComment | blockComment | openComment => rfl
  | slash h h' => exact opensComment_slash h h'
  | string | openString => exact opensComment_of_ne (by decide) _
  | mark h =>
    exact opensComment_of_ne (forall_mem_of_all (p := (· ≠ '/')) (by decide) _ h) _
  | longOperator h | operator h =>
    exact opensComment_of_ne (forall_mem_of_all (p := (· ≠ '/')) (by decide) _ h) _
  | blank h => exact opensComment_of_ne (forall_mem_of_all (p := (· ≠ '/')) (by decide) _ h) _
  | whole h | fraction h =>
    obtain ⟨d, ds, rfl⟩ := List.exists_cons_of_ne_nil h.1
    exact opensComment_of_ne (fun e => absurd (h.2 d List.mem_cons_self) (by rw [e]; decide)) _
  | word h => exact opensComment_of_ne (fun e => absurd h (by rw [e]; decide)) _
  | stray h => exact opensComment_of_ne (fun e => h (by rw [e]; decide)) _

theorem diagnosticsOf_blankedIf (hP : ∀ f, P f = true → f.isError = false) (line : Nat)
    (gs : List Segment) : diagnosticsOf line (blankedIf P gs) = diagnosticsOf line gs := by
  induction gs generalizing line with
  | nil => rfl
  | cons g gs ih =>
    rw [blankedIf, List.flatMap_cons, diagnosticsOf]
    split
    · next h =>
      rw [(tokensOf_blanksFor line _ _).2, g.diagnostic?_eq_none (hP _ h)]
      exact ih _
    · exact congrArg _ (ih _)

/-! ## Turns that read comments -/

namespace Scanner

theorem slice_turn (hg : g.Fits rest) (e : x.rest = g.text ++ rest) :
    Text.slice x.source x.current x.turn.current = g.text := by
  rw [current_turn hg e]
  exact slice_eq (b := []) e

theorem getElem?_turn (hg : g.Fits rest) (e : x.rest = g.text ++ rest) :
    x.source[x.turn.current]? = rest.head? := by
  have hr : (x.consume g).rest = rest := rest_consume e
  rw [turn_eq_consume hg e, ← hr, Scanner.rest, List.head?_drop]
  rfl

theorem meetsComment_eq (hg : g.Fits rest) (e : x.rest = g.text ++ rest) :
    x.meetsComment = g.form.isComment := by
  rw [meetsComment, e, hg.opensComment_eq]

/-- **A turn reads a comment whole**, if one begins at the cursor, and no more than that. -/
theorem meetsComment_iff (hg : g.Fits rest) (e : x.rest = g.text ++ rest) :
    x.meetsComment = true ↔ CommentAt x.source x.current x.turn.current := by
  have hslice := slice_turn hg e
  constructor
  · intro h
    rw [meetsComment_eq hg e] at h
    cases hg with
    | lineComment hb hr =>
      refine .line hslice hb fun c hc => ?_
      rw [getElem?_turn (.lineComment hb hr) e] at hc
      rcases hr with rfl | hr
      · cases hc
      · exact (Option.some.inj (hr.symm.trans hc)).symm
    | blockComment hb => exact .block hslice hb
    | openComment hb =>
      refine .unclosed hslice hb ?_
      rw [turn_eq_consume (.openComment hb) e]
      exact current_consume_of_nil (List.cons_ne_nil _ _) e
    | _ => cases h
  · intro h
    rw [meetsComment, e]
    refine opensComment_append ?_ rest
    rw [← hslice]
    cases h with
    | line h => exact h ▸ rfl
    | block h => exact h ▸ rfl
    | unclosed h => exact h ▸ rfl

end Scanner

/-! ## The law -/

open Scanner in
/-- **Comments are blanks.** Let the characters of comments give way to spaces, newlines apart. A scan
finds the same then, tokens and errors on the same lines. The comments are what turns read that begin
where a comment does; they reach up to the end of the line, or to the first star and slash after their
beginning, or to the end of the source. -/
theorem scan_uncommented (source : Text) (reporter : Reporter) :
    let plain := blankedWhere (readBy source meetsComment) source
    (scanTokens { source := plain, reporter }).result =
        (scanTokens { source, reporter }).result ∧
      (scan plain reporter).tokens = (scan source reporter).tokens ∧
      (scan plain reporter).reporter = (scan source reporter).reporter ∧
      ∀ x ∈ turns { source },
        x.meetsComment = true ↔ CommentAt source x.current x.turn.current := by
  intro plain
  obtain ⟨gs, h, -⟩ := existsUnique_segmentation source
  have hs : Segmentation (rest { source }) gs := h
  have ha : Aligned Form.isComment (readBy source meetsComment) gs :=
    aligned_readBy h fun x g rest hg e => meetsComment_eq hg e
  have hplain : Segmentation plain (blankedIf Form.isComment gs) := h.blankedWhere ha
  have htokens := tokensOf_blankedIf (fun _ => Form.isToken_of_isComment) 1 gs
  have hdiagnostics := diagnosticsOf_blankedIf (fun _ => Form.isError_of_isComment) 1 gs
  obtain ⟨hres, htok, hrep⟩ := scan_of_segmentation h reporter
  obtain ⟨hres', htok', hrep'⟩ := scan_of_segmentation hplain reporter
  refine ⟨?_, ?_, ?_, fun x hx => ?_⟩
  · rw [hres, hres', htokens]
  · rw [htok, htok', htokens]
  · rw [hrep, hrep', hdiagnostics]
  · rw [turns_eq_before hs] at hx
    obtain ⟨-, hxs, g, rest, hg, e⟩ := Counted.of_mem_before (s := { source }) rfl hs rfl hx
    obtain rfl : x.source = source := hxs
    exact meetsComment_iff hg e

open Scanner in
/-- The star that opens a comment does not close it, and there are no comments in a string. -/
example :
    let s : Text := ['/', '*', '/', '\n', '*', '/', '"', '/', '/', '"']
    blankedWhere (readBy s meetsComment) s =
      [' ', ' ', ' ', '\n', ' ', ' ', '"', '/', '/', '"'] := by
  decide

end BudgetLexer
