import BudgetLexer.Proofs.Grammar.Unique

/-!
# What may follow a segment

A segment looks at the first characters of what follows it, and at no more. So what follows may be
exchanged for a text that begins in the same way, or with a character that no lexeme goes on into.

* `Yields rest rest'`: `rest'` may stand where `rest` does; `Segment.Ends` is what the segments ask for
  that reach up to the end of the source.
* **`Segment.Fits.exchange`**: a segment keeps its place.
* `Segmentation.append`, `exists_tokensOf_append`, `diagnosticsOf_append`: two texts joined, and what
  the segments of both give.
-/

namespace BudgetLexer

/-- The characters that no lexeme before them goes on into. -/
def separators : Text := '"' :: blanks

/-- **The text `rest'` may stand where `rest` does.** It begins with a separator, or as `rest` does. -/
structure Yields (rest rest' : Text) : Prop where
  head : ∀ c ∈ rest'.head?, c ∈ separators ∨ rest.head? = some c
  fraction : BeginsFraction rest' → BeginsFraction rest
  newline : rest.head? = some '\n' → rest'.head? = some '\n'

/-- A string or a block comment that is not closed. -/
def Segment.IsOpen (g : Segment) : Prop :=
  g.form = .openString ∨ g.form = .blockComment ∧ ¬ ['*', '/'] <:+: g.text.drop 2

/-- The segment ends where `rest` follows it, if it reached up to the end before. -/
def Segment.Ends (g : Segment) (rest : Text) : Prop :=
  (g.form = .lineComment → rest = [] ∨ rest.head? = some '\n') ∧ (g.IsOpen → rest = [])

variable {g : Segment} {gs hs : List Segment} {p rest rest' t : Text} {line : Nat}

theorem Segment.ends_nil (g : Segment) : g.Ends [] := ⟨fun _ => Or.inl rfl, fun _ => rfl⟩

theorem isDigit_of_mem_separators : ∀ c ∈ separators, isDigit c = false :=
  forall_mem_of_all (by decide)

/-! ## Exchanging what follows -/

namespace Yields

theorem head?_ne (hy : Yields rest rest') {c : Char} (h : rest.head? ≠ some c)
    (hc : c ∉ separators) : rest'.head? ≠ some c := by
  intro h'
  rcases hy.head c h' with hs | hr
  · exact hc hs
  · exact h hr

theorem stops (hy : Yields rest rest') {q : Char → Bool} (h : Stops q rest)
    (hq : separators.any q = false) : Stops q rest' := by
  intro c hc
  rcases hy.head c hc with hs | hr
  · exact Bool.eq_false_iff.2 (List.any_eq_false.1 hq c hs)
  · exact h c hr

theorem append (ht : ∀ c ∈ t.head?, c ∈ separators) (rest : Text) : Yields rest (rest ++ t) := by
  cases rest with
  | nil =>
    refine ⟨fun c hc => Or.inl (ht c hc), ?_, by simp⟩
    rintro ⟨c, r, rfl, -⟩
    exact absurd (ht '.' rfl) (by decide)
  | cons d r =>
    refine ⟨fun c hc => Or.inr hc, ?_, id⟩
    rintro ⟨c, u, e, hc⟩
    obtain ⟨rfl, hr⟩ : d = '.' ∧ r ++ t = c :: u := List.cons.inj e
    cases r with
    | nil =>
      -- the digit would have to be a separator
      rw [List.nil_append] at hr
      rw [isDigit_of_mem_separators c (ht c (by rw [hr]; rfl))] at hc
      cases hc
    | cons c' r =>
      obtain ⟨rfl, -⟩ := List.cons.inj hr
      exact ⟨c', r, rfl, hc⟩

end Yields

/-- **A segment keeps its place when what follows is exchanged.** -/
theorem Segment.Fits.exchange (h : g.Fits rest) (hy : Yields rest rest')
    (he : rest = [] → g.Ends rest') : g.Fits rest' := by
  cases h with
  | mark h => exact .mark h
  | longOperator h => exact .longOperator h
  | operator h hr => exact .operator h (hy.head?_ne hr (by decide))
  | slash h h' => exact .slash (hy.head?_ne h (by decide)) (hy.head?_ne h' (by decide))
  | lineComment h hr =>
    rcases hr with rfl | hr
    · exact .lineComment h ((he rfl).1 rfl)
    · exact .lineComment h (Or.inr (hy.newline hr))
  | blockComment h => exact .blockComment h
  | openComment h =>
    obtain rfl := (he rfl).2 (Or.inr ⟨rfl, h⟩)
    exact .openComment h
  | blank h => exact .blank h
  | string h => exact .string h
  | openString h =>
    obtain rfl := (he rfl).2 (Or.inl rfl)
    exact .openString h
  | whole h hr hf => exact .whole h (hy.stops hr (by decide)) (mt hy.fraction hf)
  | fraction h h' hr => exact .fraction h h' (hy.stops hr (by decide))
  | word h h' hr => exact .word h h' (hy.stops hr (by decide))
  | stray h => exact .stray h

/-! ## Joining two texts -/

theorem Segmentation.eq_nil (h : Segmentation [] gs) : gs = [] := h.unique .nil

/-- **Two texts joined have the segments of both**, if the second begins with a separator and the last
segment of the first ends there. -/
theorem Segmentation.append (h : Segmentation p gs) (h' : Segmentation t hs)
    (ht : ∀ c ∈ t.head?, c ∈ separators) (he : ∀ g ∈ gs.getLast?, g.Ends t) :
    Segmentation (p ++ t) (gs ++ hs) := by
  induction h with
  | nil => exact h'
  | @cons g rest gs hg h ih =>
    rw [List.append_assoc, List.cons_append]
    refine .cons (hg.exchange (.append ht rest) ?_) (ih ?_)
    · rintro rfl
      obtain rfl := h.eq_nil
      exact he g rfl
    · intro g' hg'
      cases gs with
      | nil => cases hg'
      | cons => exact he g' hg'

/-- The tokens of a list of segments begin with those of its first part. The end comes after all. -/
theorem exists_tokensOf_append (line : Nat) (gs : List Segment) :
    ∃ ts, ∀ hs, tokensOf line (gs ++ hs) =
      ts ++ tokensOf (line + Text.newlines (gs.flatMap Segment.text)) hs := by
  induction gs generalizing line with
  | nil => exact ⟨[], fun hs => rfl⟩
  | cons g gs ih =>
    obtain ⟨ts, h⟩ := ih (line + Text.newlines g.text)
    refine ⟨(g.token? line).toList ++ ts, fun hs => ?_⟩
    rw [List.cons_append, tokensOf, h, List.append_assoc, List.flatMap_cons, Text.newlines_append,
      Nat.add_assoc]

theorem diagnosticsOf_append (line : Nat) (gs hs : List Segment) :
    diagnosticsOf line (gs ++ hs) = diagnosticsOf line gs ++
      diagnosticsOf (line + Text.newlines (gs.flatMap Segment.text)) hs := by
  induction gs generalizing line with
  | nil => rfl
  | cons g gs ih =>
    rw [List.cons_append, diagnosticsOf, ih, diagnosticsOf, List.append_assoc, List.flatMap_cons,
      Text.newlines_append, Nat.add_assoc]

end BudgetLexer
