import BudgetLexer.Proofs.Grammar.Exchange
import BudgetLexer.Proofs.Run

/-!
# Blanking out segments

Segments that are no tokens may be written over with spaces, their newlines left where they are. The
segments around them keep their places, and the tokens their lines.

* `readBy source R i`: position `i` is read in one of the turns where `R` holds.
* `blankedWhere p t`: the text with spaces at the positions where `p` holds.
* `Aligned`: positions that go along with whole segments; `aligned_readBy` says it of the turns.
* **`Segmentation.blankedWhere`**: the segments of the text with spaces; `tokensOf_blankedIf` gives its
  tokens.
-/

namespace BudgetLexer

/-- The turn that begins in this state reads the character at position `i`. -/
def Scanner.reads (x : Scanner) (i : Nat) : Bool := x.current ≤ i && i < x.turn.current

/-- The character at the position is read in a turn where `R` holds. -/
def readBy (source : Text) (R : Scanner → Bool) (i : Nat) : Bool :=
  (Scanner.turns { source }).any fun x => R x && x.reads i

/-- A space in the place of the character, unless this is a newline. -/
def blankFor (c : Char) : Char := if c = '\n' then c else ' '

/-- **The text with spaces** at the positions where `p` holds. Newlines stay. -/
def blankedWhere (p : Nat → Bool) (t : Text) : Text := t.mapIdx fun i c => if p i then blankFor c else c

/-- The blanks that are written over a segment. -/
def blanksFor (t : Text) : List Segment := t.map fun c => ⟨.blank, [blankFor c]⟩

/-- The segments, with blanks for those of the forms in `P`. -/
def blankedIf (P : Form → Bool) (gs : List Segment) : List Segment :=
  gs.flatMap fun g => if P g.form then blanksFor g.text else [g]

/-- The positions where `p` holds are those of the segments of the forms in `P`. -/
def Aligned (P : Form → Bool) : (Nat → Bool) → List Segment → Prop
  | _, [] => True
  | p, g :: gs => (∀ k < g.text.length, p k = P g.form) ∧
      Aligned P (fun k => p (g.text.length + k)) gs

variable {P : Form → Bool} {p : Nat → Bool} {R : Scanner → Bool} {s : Scanner} {g : Segment}
  {gs hs : List Segment} {rest t u : Text} {line : Nat}

/-! ## Texts with spaces -/

theorem blankFor_mem_blanks (c : Char) : blankFor c ∈ blanks := by
  unfold blankFor
  split
  · next h => exact h ▸ by decide
  · decide

theorem newlines_blankFor (c : Char) : Text.newlines [blankFor c] = Text.newlines [c] := by
  by_cases h : c = '\n' <;> simp [blankFor, h]

theorem blankedWhere_append (p : Nat → Bool) (t u : Text) :
    blankedWhere p (t ++ u) = blankedWhere p t ++ blankedWhere (fun k => p (t.length + k)) u := by
  simp [blankedWhere, List.mapIdx_append, Nat.add_comm]

theorem blankedWhere_of_forall {b : Bool} (h : ∀ k < t.length, p k = b) :
    blankedWhere p t = if b then t.map blankFor else t := by
  refine List.ext_getElem (by cases b <;> simp [blankedWhere]) fun k hk hk' => ?_
  have hp : p k = b := h k (by simpa [blankedWhere] using hk)
  cases b <;> simp [blankedWhere, hp]

theorem getElem?_of_blankedWhere {k : Nat} {d : Char} (h : (blankedWhere p t)[k]? = some d) :
    d ∈ separators ∨ t[k]? = some d := by
  rw [blankedWhere, List.getElem?_mapIdx, Option.map_eq_some_iff] at h
  obtain ⟨c, hc, rfl⟩ := h
  split
  · exact Or.inl (List.mem_cons_of_mem _ (blankFor_mem_blanks c))
  · exact Or.inr hc

/-- **A text with spaces may stand for the text**: what comes before sees no more of it. -/
theorem Yields.blankedWhere (p : Nat → Bool) (rest : Text) :
    Yields rest (blankedWhere p rest) := by
  refine ⟨fun c hc => ?_, ?_, fun h => ?_⟩
  · rw [List.head?_eq_getElem?] at hc ⊢
    exact getElem?_of_blankedWhere hc
  · rintro ⟨c, r, e, hc⟩
    have h₀ : rest[0]? = some '.' :=
      (getElem?_of_blankedWhere (p := p) (by rw [e]; rfl)).resolve_left (by decide)
    have h₁ : rest[1]? = some c := by
      refine (getElem?_of_blankedWhere (p := p) (by rw [e]; rfl)).resolve_left fun hs => ?_
      rw [isDigit_of_mem_separators c hs] at hc
      cases hc
    match rest, h₀, h₁ with
    | d :: d' :: r', h₀, h₁ =>
      obtain rfl : d = '.' := Option.some.inj h₀
      obtain rfl : d' = c := Option.some.inj h₁
      exact ⟨d', r', rfl, hc⟩
  · obtain ⟨r, rfl⟩ := List.head?_eq_some_iff.1 h
    simp [BudgetLexer.blankedWhere, blankFor]

/-! ## Segments with blanks -/

theorem Segmentation.blanksFor (h : Segmentation u hs) (t : Text) :
    Segmentation (t.map blankFor ++ u) (blanksFor t ++ hs) := by
  induction t with
  | nil => exact h
  | cons c t ih => exact .cons (.blank (blankFor_mem_blanks c)) ih

/-- **The text with spaces has the segments with blanks.** -/
theorem Segmentation.blankedWhere (h : Segmentation t gs) (hp : Aligned P p gs) :
    Segmentation (blankedWhere p t) (blankedIf P gs) := by
  induction h generalizing p with
  | nil => exact .nil
  | @cons g rest gs hg _ ih =>
    rw [blankedWhere_append, blankedWhere_of_forall hp.1, blankedIf, List.flatMap_cons]
    have hrest := ih hp.2
    split
    · exact hrest.blanksFor g.text
    · refine .cons (hg.exchange (.blankedWhere _ rest) ?_) hrest
      rintro rfl
      exact g.ends_nil

theorem tokensOf_blanksFor (line : Nat) (t : Text) (hs : List Segment) :
    tokensOf line (blanksFor t ++ hs) = tokensOf (line + Text.newlines t) hs ∧
      diagnosticsOf line (blanksFor t ++ hs) = diagnosticsOf (line + Text.newlines t) hs := by
  induction t generalizing line with
  | nil => exact ⟨rfl, rfl⟩
  | cons c t ih =>
    have hl : line + Text.newlines (c :: t) = line + Text.newlines [blankFor c] + Text.newlines t := by
      rw [newlines_blankFor, Nat.add_assoc, ← Text.newlines_append]
      rfl
    rw [hl]
    exact ih _

theorem Segment.token?_eq_none (h : g.form.isToken = false) (line : Nat) : g.token? line = none := by
  obtain ⟨f, t⟩ := g
  cases f with
  | lineComment | blockComment | blank | openString | stray => rfl
  | _ => cases h

/-- **Blanks for what is no token leave the tokens as they are**, also their lines. -/
theorem tokensOf_blankedIf (hP : ∀ f, P f = true → f.isToken = false) (line : Nat)
    (gs : List Segment) : tokensOf line (blankedIf P gs) = tokensOf line gs := by
  induction gs generalizing line with
  | nil => rfl
  | cons g gs ih =>
    rw [blankedIf, List.flatMap_cons, tokensOf]
    split
    · next h =>
      rw [(tokensOf_blanksFor line _ _).1, g.token?_eq_none (hP _ h)]
      exact ih _
    · exact congrArg _ (ih _)

/-! ## The positions of turns -/

theorem Scanner.le_current_of_mem_before {x : Scanner} (hx : x ∈ s.before gs) :
    s.current ≤ x.current := by
  induction gs generalizing s with
  | nil => cases hx
  | cons g gs ih =>
    rcases List.mem_cons.1 hx with rfl | hx
    · exact Nat.le_refl _
    · exact Nat.le_trans (Nat.le_add_right _ _) (ih hx)

theorem Scanner.reads_eq (hg : g.Fits rest) (e : s.rest = g.text ++ rest) (k : Nat) :
    s.reads (s.current + k) = decide (k < g.text.length) := by
  simp [reads, current_turn hg e]

theorem Scanner.aligned_before (h : Segmentation t gs) (e : s.rest = t)
    (hR : ∀ x (g : Segment) rest, g.Fits rest → x.rest = g.text ++ rest → R x = P g.form) :
    Aligned P (fun k => (s.before gs).any fun x => R x && x.reads (s.current + k)) gs := by
  induction h generalizing s with
  | nil => trivial
  | @cons g rest gs hg _ ih =>
    refine ⟨fun k hk => ?_, ?_⟩
    · -- the later turns begin after the position
      have htail : (before (s.consume g) gs).any (fun x => R x && x.reads (s.current + k)) =
          false := by
        refine List.any_eq_false.2 fun x hx => ?_
        have hc : s.current + g.text.length ≤ x.current := le_current_of_mem_before hx
        have hlt : ¬ x.current ≤ s.current + k := by omega
        simp [reads, hlt]
      dsimp only
      rw [before, List.any_cons, htail, hR s g rest hg e, reads_eq hg e]
      simp [hk]
    · -- and the first turn ends before the positions of the others
      have hshift : ∀ k, ((s.before (g :: gs)).any fun x =>
            R x && x.reads (s.current + (g.text.length + k))) =
          (before (s.consume g) gs).any fun x => R x && x.reads ((s.consume g).current + k) := by
        intro k
        have hc : (s.consume g).current + k = s.current + (g.text.length + k) := Nat.add_assoc ..
        have hlt : ¬ g.text.length + k < g.text.length := by omega
        rw [before, List.any_cons, reads_eq hg e, hc, decide_eq_false hlt, Bool.and_false,
          Bool.false_or]
      simp only [hshift]
      exact ih (rest_consume e)

theorem aligned_readBy (h : Segmentation t gs)
    (hR : ∀ x (g : Segment) rest, g.Fits rest → x.rest = g.text ++ rest → R x = P g.form) :
    Aligned P (readBy t R) gs := by
  have hs : Segmentation (Scanner.rest { source := t }) gs := h
  have ha := Scanner.aligned_before hs rfl hR
  rw [← Scanner.turns_eq_before hs] at ha
  simp only [Nat.zero_add] at ha
  exact ha

end BudgetLexer
