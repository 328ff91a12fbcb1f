import BudgetLexer.Proofs.Grammar.Blanking
import BudgetLexer.Proofs.Lines

/-!
# Bounded lookahead

A turn of a scan looks at no more than two characters past its end. So what a scan has found up to a
position is decided by the text up to two characters past it, however the text goes on after that, and
whether it goes on at all.

* `Segment.Fits.of_take_two`: a segment keeps its place when the two characters after it stay.
* `Segment.Fits.decided`: a text that agrees with the source for two characters past a segment begins
  with this segment.
* `Scanner.bare`, `Scanner.sight`: a scanner but for its source, and what is seen of a turn.
* `filter_before_eq`: two runs whose rests agree have the same turns for as long.
* **`turns_decided`**: the turns of two scans up to where their sources part.
-/

namespace BudgetLexer

variable {g g' : Segment} {gs hs : List Segment} {rest rest' t u : Text} {m n : Nat}

/-! ## Two characters after a segment -/

theorem Yields.of_take_two (h : rest'.take 2 = rest.take 2) (hl : 2 ≤ rest.length) :
    Yields rest rest' := by
  match rest, rest', h with
  | c :: d :: r, c' :: d' :: r', h =>
    obtain ⟨rfl, rfl⟩ : c' = c ∧ d' = d := by simpa using h
    refine ⟨fun _ hc => Or.inr hc, ?_, id⟩
    rintro ⟨x, r₁, e, hx⟩
    obtain ⟨rfl, rfl, -⟩ : c' = '.' ∧ d' = x ∧ r' = r₁ := by simpa using e
    exact ⟨_, r, rfl, hx⟩
  | [_], _, _ => simp at hl
  | [], _, _ => simp at hl

theorem Segment.Fits.of_take_two (hg : g.Fits rest) (h : rest'.take 2 = rest.take 2)
    (hl : 2 ≤ rest.length) : g.Fits rest' := by
  refine hg.exchange (.of_take_two h hl) ?_
  rintro rfl
  simp at hl

theorem exists_append_of_take (h : u.take (t.length + m) = (t ++ rest).take (t.length + m)) :
    ∃ r, u = t ++ r ∧ r.take m = rest.take m := by
  have hp : t <+: u := by
    rw [List.take_length_add_append] at h
    exact (h ▸ List.prefix_append t _).trans (List.take_prefix _ u)
  obtain ⟨r, rfl⟩ := hp
  rw [List.take_length_add_append, List.take_length_add_append] at h
  exact ⟨r, rfl, List.append_cancel_left h⟩

/-- **A segment is decided two characters past its end.** -/
theorem Segment.Fits.decided (hg : g.Fits rest) (hg' : g'.Fits rest')
    (h : (g'.text ++ rest').take (g.text.length + m) = (g.text ++ rest).take (g.text.length + m))
    (hm : 2 ≤ m) (hl : m ≤ rest.length) : g' = g ∧ rest'.take m = rest.take m := by
  obtain ⟨r, e, hr⟩ := exists_append_of_take h
  have h₂ : r.take 2 = rest.take 2 := by
    have := congrArg (List.take 2) hr
    rwa [List.take_take, List.take_take, Nat.min_eq_left hm] at this
  obtain ⟨rfl, rfl⟩ := hg'.unique (hg.of_take_two h₂ (Nat.le_trans hm hl)) e
  exact ⟨rfl, hr⟩

theorem Segment.Fits.late (hg : g.Fits rest) (hg' : g'.Fits rest')
    (h : (g'.text ++ rest').take n = (g.text ++ rest).take n) (hn : ¬ g.text.length + 2 ≤ n)
    (hl : n ≤ (g'.text ++ rest').length) : ¬ g'.text.length + 2 ≤ n := by
  intro hn'
  obtain ⟨m, rfl⟩ := Nat.exists_eq_add_of_le (Nat.le_trans (Nat.le_add_right _ _) hn')
  rw [List.length_append] at hl
  obtain ⟨rfl, -⟩ := hg'.decided hg h.symm (by omega) (by omega)
  exact hn hn'

/-! ## Two runs -/

namespace Scanner

variable {s s' : Scanner}

/-- The scanner but for its source. -/
def bare (s : Scanner) : Scanner := { s with source := [] }

/-- What is seen of a turn: the counters when it is done, and what it has found. -/
structure Sight where
  start : Nat
  current : Nat
  startLine : Nat
  line : Nat
  tokens : List (Token Nat)
  diagnostics : List Diagnostic
  deriving DecidableEq

/-- What is seen of a turn in the states before and after it. -/
def sightOf (x y : Scanner) : Sight :=
  ⟨y.start, y.current, y.startLine, y.line, x.newTokens y, x.newDiagnostics y⟩

/-- What is seen of the turn that begins in this state. -/
def sight (x : Scanner) : Sight := sightOf x x.turn

/-- The turns of a scan that are done two characters before a position, or earlier. -/
def turnsWithin (n : Nat) (s : Scanner) : List Scanner := s.turns.filter (·.turn.current + 2 ≤ n)

theorem bare_consume (s : Scanner) (g : Segment) : (s.consume g).bare = s.bare.consume g := rfl

theorem current_le_turn (x : Scanner) : x.current ≤ x.turn.current :=
  (effect_scanToken x.mark).onward.2

theorem filter_before_eq_nil (h : Segmentation t gs) (e : s.rest = t)
    (hn : ∀ g ∈ gs.head?, n < s.current + g.text.length + 2) :
    (s.before gs).filter (·.turn.current + 2 ≤ n) = [] := by
  rw [List.filter_eq_nil_iff]
  cases h with
  | nil => simp [before]
  | @cons g rest gs hg _ =>
    have hlt := hn g rfl
    intro x hx
    rw [decide_eq_true_eq]
    rcases List.mem_cons.1 hx with rfl | hx
    · rw [current_turn hg e]
      omega
    · have hcur : s.current + g.text.length ≤ x.current := le_current_of_mem_before hx
      have := current_le_turn x
      omega

/-- **Two runs.** Where the rests of two sources agree, the turns are the same up to two characters
before their end. -/
theorem filter_before_eq (ht : Segmentation t gs) (hu : Segmentation u hs) (e : s.rest = t)
    (e' : s'.rest = u) (hb : s'.bare = s.bare) (h : u.take m = t.take m) (hlt : m ≤ t.length)
    (hlu : m ≤ u.length) :
    ((s'.before hs).filter (·.turn.current + 2 ≤ s.current + m)).map
        (fun x => (x.bare, x.turn.bare)) =
      ((s.before gs).filter (·.turn.current + 2 ≤ s.current + m)).map
        (fun x => (x.bare, x.turn.bare)) := by
  have hc : s'.bare.current = s.bare.current := by rw [hb]
  change s'.current = s.current at hc
  induction ht generalizing s s' u hs m with
  | nil =>
    -- nothing is left to agree about
    rw [filter_before_eq_nil .nil e (by simp), filter_before_eq_nil hu e']
    intro g _
    simp only [List.length_nil] at hlt
    omega
  | @cons g rest gs hg htail ih =>
    by_cases hm : g.text.length + 2 ≤ m
    · obtain ⟨k, rfl⟩ := Nat.exists_eq_add_of_le (Nat.le_trans (Nat.le_add_right _ _) hm)
      cases hu with
      | nil => simp at hlu; omega
      | @cons g' rest' hs hg' hutail =>
        simp only [List.length_append] at hlt hlu
        obtain ⟨rfl, hr⟩ := hg.decided hg' h (by omega) (by omega)
        have hcur : s.current + (g'.text.length + k) = (s.consume g').current + k :=
          (Nat.add_assoc ..).symm
        have hturn : s.turn = s.consume g' := turn_eq_consume hg e
        have hturn' : s'.turn = s'.consume g' := turn_eq_consume hg' e'
        have hb' : (s'.consume g').bare = (s.consume g').bare := by
          rw [bare_consume, hb, bare_consume]
        have hcur' : (s'.consume g').current = (s.consume g').current :=
          congrArg (· + g'.text.length) hc
        have htail := ih hutail (rest_consume e) (rest_consume e') hb' hr (by omega) (by omega) hcur'
        rw [hcur, before, before, List.filter_cons_of_pos, List.filter_cons_of_pos, List.map_cons,
          List.map_cons, htail, hturn, hturn', hb, hb']
        · rw [hturn, decide_eq_true_eq]
          omega
        · rw [hturn', hcur', decide_eq_true_eq]
          omega
    · -- then the first turns are done too late in both runs
      rw [filter_before_eq_nil (.cons hg htail) e, filter_before_eq_nil hu e']
      · intro g' hg₁
        cases hu with
        | nil => cases hg₁
        | @cons g' rest' hs hg' hutail =>
          obtain rfl : g' = _ := Option.some.inj hg₁
          have := hg.late hg' h hm hlu
          omega
      · rintro _ ⟨⟩
        omega

end Scanner

/-! ## The law -/

open Scanner in
/-- **Bounded lookahead.** Let two sources begin with the same `n` characters. The turns that are done
two characters before the `n`-th or earlier are the same in the scans of both: they leave the same
counters and add the same tokens and the same diagnostics, and all that a scanner holds after each of
them is the same. -/
theorem turns_decided (s t : Text) (reporter : Reporter) (n : Nat) (hs : n ≤ s.length)
    (ht : n ≤ t.length) (h : s.take n = t.take n) :
    let a := turnsWithin n { source := s, reporter }
    let b := turnsWithin n { source := t, reporter }
    a.map sight = b.map sight ∧ a.map (fun x => x.turn.bare) = b.map (fun x => x.turn.bare) := by
  intro a b
  obtain ⟨gs, hgs, -⟩ := existsUnique_segmentation s
  obtain ⟨us, hus, -⟩ := existsUnique_segmentation t
  have hgs' : Segmentation (rest { source := s, reporter }) gs := hgs
  have hus' : Segmentation (rest { source := t, reporter }) us := hus
  have hab : a.map (fun x => (x.bare, x.turn.bare)) = b.map (fun x => (x.bare, x.turn.bare)) := by
    have := filter_before_eq hus' hgs' rfl rfl rfl h ht hs
    rwa [← turns_eq_before hus', ← turns_eq_before hgs', Nat.zero_add] at this
  constructor
  · have := congrArg (List.map fun p : Scanner × Scanner => sightOf p.1 p.2) hab
    rwa [List.map_map, List.map_map] at this
  · have := congrArg (List.map Prod.snd) hab
    rwa [List.map_map, List.map_map] at this

open Scanner in
/-- Two sources agree up to the digit and the point of a number. The word and the blank before it are
read alike; the number is not, and its turn is done one character before the sources part. -/
theorem turns_decided_before_number :
    let s : Text := ['a', 'b', ' ', '1', '.', '5']
    let t : Text := ['a', 'b', ' ', '1', '.', 'x']
    let a := turnsWithin 5 { source := s, reporter := .silent }
    let b := turnsWithin 5 { source := t, reporter := .silent }
    5 ≤ s.length ∧ 5 ≤ t.length ∧ s.take 5 = t.take 5 ∧ a.length = 2 ∧
      a.map sight = b.map sight ∧ a.map (fun x => x.turn.bare) = b.map (fun x => x.turn.bare) ∧
      (turns { source := s }).map (·.turn.current) = [2, 3, 6] ∧
      (turns { source := t }).map (·.turn.current) = [2, 3, 4, 5, 6] := by
  intro s t a b
  obtain ⟨h, h'⟩ := turns_decided s t .silent 5 (by decide) (by decide) rfl
  exact ⟨by decide, by decide, rfl, by decide, h, h', by decide, by decide⟩

end BudgetLexer
