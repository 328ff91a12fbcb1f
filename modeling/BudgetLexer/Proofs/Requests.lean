import BudgetLexer.Proofs.Lines
import BudgetLexer.Scanner.Effect

/-!
# A scanner in use

The calls of a scanner may be made in any order, each in whatever state the one before has left, also
one that has failed. The counters stay in order all the same, nothing that was found is lost, and each
token is the text between the counters.

* `Scanner.InOrder`: the order of the counters; `Scanner.Grows`: what never goes back.
* `perform_cases`: a call marks the lexeme, scans to the end or has the effect of one step.
* `tokens_perform`, `newTokens_of_mem_parts`: the tokens that a call adds.
* `InOrder.perform`, `InOrder.performAll`: one call and any number of calls keep the order.
* **`calls_keep_order`**: what holds after any calls.
-/

namespace BudgetLexer

/-- The request sets a counter. All other requests are calls. -/
def Request.setsCounter : Request → Bool
  | .set _ _ => true
  | _ => false

/-- The token that a scan to the end adds when it is done. -/
def Request.ending (after : Scanner) : Request → List (Token Nat)
  | .scanTokens => [⟨.eof, [], .none, after.line⟩]
  | _ => []

namespace Scanner

/-- The scanner after requests, whether they failed or not. -/
def performAll (s : Scanner) (rs : List Request) : Scanner :=
  rs.foldl (fun s r => (s.perform r).scanner) s

/-- The states before and after a request; of a scan to the end, before and after each turn. -/
def parts (s : Scanner) : Request → List (Scanner × Scanner)
  | .scanTokens => s.turns.map fun x => (x, x.turn)
  | r => [(s, (s.perform r).scanner)]

/-- **The counters are in order.** The line may lag behind the newlines before the cursor, since a
character may be taken without a look at it, but it is not ahead of them. -/
structure InOrder (s : Scanner) : Prop where
  start_le : s.start ≤ s.current
  current_le : s.current ≤ s.source.length
  one_le : 1 ≤ s.startLine
  startLine_le : s.startLine ≤ s.line
  line_le : s.line ≤ s.source.lineAt s.current

/-- The scanner has gone on: the cursor and its line have not gone back, and nothing found was lost. -/
structure Grows (s s' : Scanner) : Prop where
  source_eq : s'.source = s.source
  current_le : s.current ≤ s'.current
  line_le : s.line ≤ s'.line
  diagnostics : s.reporter.diagnostics <+: s'.reporter.diagnostics

variable {s s' x : Scanner} {r : Request} {rs : List Request}

/-! ## Growing -/

theorem Grows.refl (s : Scanner) : Grows s s :=
  ⟨rfl, Nat.le_refl _, Nat.le_refl _, List.prefix_refl _⟩

theorem Grows.trans (h : Grows s x) (h' : Grows x s') : Grows s s' :=
  ⟨h'.source_eq.trans h.source_eq, Nat.le_trans h.current_le h'.current_le,
    Nat.le_trans h.line_le h'.line_le, h.diagnostics.trans h'.diagnostics⟩

theorem Moved.grows (h : Moved s x) : Grows s x := by
  obtain ⟨n, m, -, -⟩ := h
  exact ⟨rfl, Nat.le_add_right _ _, Nat.le_add_right _ _, List.prefix_refl _⟩

theorem Effect.grows (h : Effect s s') : Grows s s' := by
  cases h with
  | move h => exact h.grows
  | token h => exact ⟨h.grows.1, h.grows.2, h.grows.3, h.grows.4⟩
  | report h =>
    refine ⟨h.grows.1, h.grows.2, h.grows.3, h.grows.4.trans ?_⟩
    exact List.prefix_append _ _

theorem grows_mark (s : Scanner) : Grows s s.mark :=
  ⟨rfl, Nat.le_refl _, Nat.le_refl _, List.prefix_refl _⟩

theorem grows_turn (s : Scanner) : Grows s s.turn :=
  (grows_mark s).trans (effect_scanToken s.mark).grows

/-! ## The order of the counters -/

theorem InOrder.fresh (source : Text) (reporter : Reporter) : InOrder { source, reporter } :=
  ⟨Nat.le_refl _, Nat.zero_le _, Nat.le_refl _, Nat.le_refl _, Nat.le_refl _⟩

theorem InOrder.mark (hs : s.InOrder) : s.mark.InOrder :=
  ⟨Nat.le_refl _, hs.current_le, Nat.le_trans hs.one_le hs.startLine_le, Nat.le_refl _, hs.line_le⟩

theorem InOrder.moved (hs : s.InOrder) (h : Moved s x) : x.InOrder := by
  obtain ⟨n, m, hn, hm⟩ := h
  rw [length_rest] at hn
  have hcur := hs.current_le
  have hline := hs.line_le
  refine ⟨Nat.le_trans hs.start_le (Nat.le_add_right _ _), ?_, hs.one_le,
    Nat.le_trans hs.startLine_le (Nat.le_add_right _ _), ?_⟩
  · change s.current + n ≤ s.source.length
    omega
  · -- the newlines passed are those of the text that is moved over
    change s.line + m ≤ 1 + Text.newlines (s.source.take (s.current + n))
    rw [Text.lineAt] at hline
    rw [List.take_add, Text.newlines_append]
    exact Nat.le_trans (Nat.add_le_add hline hm) (Nat.le_of_eq (Nat.add_assoc ..))

theorem InOrder.effect (hs : s.InOrder) (h : Effect s s') : s'.InOrder := by
  cases h with
  | move h => exact hs.moved h
  | token h | report h =>
    have hx := hs.moved h
    exact ⟨hx.1, hx.2, hx.3, hx.4, hx.5⟩

theorem InOrder.turn (hs : s.InOrder) : s.turn.InOrder := hs.mark.effect (effect_scanToken s.mark)

/-! ## Scans to the end -/

theorem InOrder.scanTokens (hs : s.InOrder) : s.scanTokens.scanner.InOrder := by
  have h := scanLoop_keeps (fun _ hx => InOrder.turn hx) s.rest.length hs
  rw [scanTokens_eq]
  exact ⟨h.1, h.2, h.3, h.4, h.5⟩

theorem grows_scanTokens (s : Scanner) : Grows s s.scanTokens.scanner := by
  have h := scanLoop_keeps (fun x hx => hx.trans (grows_turn x)) s.rest.length (Grows.refl s)
  rw [scanTokens_eq]
  exact ⟨h.1, h.2, h.3, h.4⟩

/-! ## One call -/

/-- **A call is one step**, unless it marks the lexeme or scans to the end. -/
theorem effect_perform (s : Scanner) (hr : r.setsCounter = false) (hm : r ≠ .mark)
    (he : r ≠ .scanTokens) : Effect s (s.perform r).scanner := by
  cases r with
  | mark => exact absurd rfl hm
  | set => cases hr
  | advance => exact .move (moved_advance s)
  | peek | peekNext | isAtEnd => exact .move (.refl s)
  | accept t => exact .move (moved_accept s t)
  | scanToken => exact effect_scanToken s
  | string => exact effect_string s
  | number => exact effect_number s
  | identifier => exact effect_identifier s
  | blockComment => exact .move (moved_blockComment s)
  | addToken name literal =>
    rw [perform]
    split
    · exact .token (.refl s) _ _
    · exact .move (.refl s)
  | scanTokens => exact absurd rfl he

theorem perform_cases (s : Scanner) (hr : r.setsCounter = false) :
    r = .mark ∨ r = .scanTokens ∨ r ≠ .scanTokens ∧ Effect s (s.perform r).scanner := by
  by_cases hm : r = .mark
  · exact Or.inl hm
  by_cases he : r = .scanTokens
  · exact Or.inr (Or.inl he)
  · exact Or.inr (Or.inr ⟨he, effect_perform s hr hm he⟩)

theorem InOrder.perform (hs : s.InOrder) (hr : r.setsCounter = false) :
    (s.perform r).scanner.InOrder := by
  rcases perform_cases s hr with rfl | rfl | ⟨-, h⟩
  · exact hs.mark
  · exact hs.scanTokens
  · exact hs.effect h

theorem grows_perform (s : Scanner) (hr : r.setsCounter = false) : Grows s (s.perform r).scanner := by
  rcases perform_cases s hr with rfl | rfl | ⟨-, h⟩
  · exact grows_mark s
  · exact grows_scanTokens s
  · exact h.grows

/-! ## The tokens of a call -/

theorem Effect.newTokens (h : Effect s s') : s'.tokens = s.tokens ++ s.newTokens s' ∧
    ∀ t ∈ s.newTokens s', t.lexeme = s'.lexeme ∧ t.line = s'.startLine := by
  cases h with
  | move h | report h =>
    obtain ⟨n, m, -, -⟩ := h
    simp [Scanner.newTokens, Scanner.report]
  | token h k v =>
    obtain ⟨n, m, -, -⟩ := h
    simp [Scanner.newTokens, addToken, lexeme]

theorem newTokens_mark (s : Scanner) : s.newTokens s.mark = [] := List.drop_length

theorem tokens_scanTokens (s : Scanner) : s.scanTokens.scanner.tokens = s.tokens ++
    (s.turns.flatMap fun x => x.newTokens x.turn) ++
      [⟨.eof, [], .none, s.scanTokens.scanner.line⟩] := by
  obtain ⟨gs, h, -⟩ := existsUnique_segmentation s.rest
  obtain ⟨-, htok, -, -, -, hline⟩ := fields_of_segmentation h
  rw [htok, hline, tokensOf_eq_flatMap h rfl, turns_eq_before h, List.append_assoc]

theorem parts_of_ne (s : Scanner) (he : r ≠ .scanTokens) :
    s.parts r = [(s, (s.perform r).scanner)] ∧ r.ending (s.perform r).scanner = [] := by
  cases r with
  | scanTokens => exact absurd rfl he
  | _ => exact ⟨rfl, rfl⟩

/-- **What a call adds**: the tokens of its parts, and the end after a scan. -/
theorem tokens_perform (s : Scanner) (hr : r.setsCounter = false) :
    (s.perform r).scanner.tokens = s.tokens ++ (s.parts r).flatMap (fun x => x.1.newTokens x.2) ++
      r.ending (s.perform r).scanner := by
  rcases perform_cases s hr with rfl | rfl | ⟨he, h⟩
  · change s.tokens = s.tokens ++ (s.newTokens s.mark ++ []) ++ []
    rw [newTokens_mark]
    simp
  · rw [parts, List.flatMap_map]
    exact tokens_scanTokens s
  · rw [(s.parts_of_ne he).1, (s.parts_of_ne he).2, List.flatMap_singleton, List.append_nil]
    exact h.newTokens.1

theorem newTokens_of_mem_parts (s : Scanner) (hr : r.setsCounter = false) :
    ∀ x ∈ s.parts r, x.2.source = s.source ∧
      ∀ t ∈ x.1.newTokens x.2, t.lexeme = x.2.lexeme ∧ t.line = x.2.startLine := by
  intro x hx
  rcases perform_cases s hr with rfl | rfl | ⟨he, h⟩
  · obtain rfl := List.mem_singleton.1 hx
    refine ⟨rfl, fun t ht => ?_⟩
    change t ∈ s.newTokens s.mark at ht
    rw [newTokens_mark] at ht
    cases ht
  · obtain ⟨y, hy, rfl⟩ := List.mem_map.1 hx
    have hgrows : Grows s y := turns_keep (fun x hx => hx.trans (grows_turn x)) (.refl s) y hy
    exact ⟨(hgrows.trans (grows_turn y)).source_eq, (effect_scanToken y.mark).newTokens.2⟩
  · rw [(s.parts_of_ne he).1] at hx
    obtain rfl := List.mem_singleton.1 hx
    exact ⟨h.grows.source_eq, h.newTokens.2⟩

/-! ## Any number of calls -/

theorem InOrder.performAll (hs : s.InOrder) (hrs : ∀ r ∈ rs, r.setsCounter = false) :
    (s.performAll rs).InOrder ∧ Grows s (s.performAll rs) := by
  induction rs generalizing s with
  | nil => exact ⟨hs, .refl s⟩
  | cons r rs ih =>
    have hr := hrs r List.mem_cons_self
    obtain ⟨h, hg⟩ := ih (hs.perform hr) fun q hq => hrs q (List.mem_cons_of_mem _ hq)
    exact ⟨h, (grows_perform s hr).trans hg⟩

end Scanner

open Scanner

/-- **A scanner in use.** After any calls, and after one more, the counters are in order. The cursor and
its line do not go back, and what was found stays and is added to at the end. What a call adds to the
tokens are those of its turns, or its own, each of them the text between the counters when the turn or
the call is done, on the line where that text begins; and, after a scan, the end. -/
theorem calls_keep_order (source : Text) (reporter : Reporter) (rs : List Request) (r : Request)
    (hrs : ∀ q ∈ rs, q.setsCounter = false) (hr : r.setsCounter = false) :
    let s := performAll { source, reporter } rs
    let s' := (s.perform r).scanner
    s.InOrder ∧ s'.InOrder ∧ s'.source = source ∧ s.current ≤ s'.current ∧ s.line ≤ s'.line ∧
      s.reporter.diagnostics <+: s'.reporter.diagnostics ∧
      s'.tokens = s.tokens ++ (s.parts r).flatMap (fun x => x.1.newTokens x.2) ++ r.ending s' ∧
      ∀ x ∈ s.parts r, ∀ t ∈ x.1.newTokens x.2,
        t.lexeme = Text.slice source x.2.start x.2.current ∧ t.line = x.2.startLine := by
  intro s s'
  obtain ⟨hs, hgrown⟩ := (InOrder.fresh source reporter).performAll hrs
  have hsource : s.source = source := hgrown.source_eq
  have hg := grows_perform s hr
  refine ⟨hs, hs.perform hr, hg.source_eq.trans hsource, hg.current_le, hg.line_le, hg.diagnostics,
    tokens_perform s hr, fun x hx t ht => ?_⟩
  obtain ⟨hxs, hxt⟩ := newTokens_of_mem_parts s hr x hx
  have hlex := (hxt t ht).1
  rw [lexeme, hxs, hsource] at hlex
  exact ⟨hlex, (hxt t ht).2⟩

/-- A newline is taken uncounted, a character is reported, and a number is asked for where none is: the
string that is then read has no opening quote, and its token is the text since the start. -/
theorem calls_keep_order_after_failure :
    let source : Text := ['\n', '$', 'a', '"']
    let rs : List Request := [.advance, .scanToken, .number]
    let s := performAll { source, reporter := .silent } rs
    let s' := (s.perform .string).scanner
    (∀ q ∈ rs, q.setsCounter = false) ∧ Request.string.setsCounter = false ∧
      (s.perform .number).result.isOk = false ∧ s.line < source.lineAt s.current ∧
      s.InOrder ∧ s'.InOrder ∧ s.current ≤ s'.current ∧ s.line ≤ s'.line ∧
      s'.tokens = [⟨.string, source, .text ['$', 'a'], 1⟩] ∧
      ∀ x ∈ s.parts .string, ∀ t ∈ x.1.newTokens x.2,
        t.lexeme = Text.slice source x.2.start x.2.current ∧ t.line = x.2.startLine := by
  intro source rs s s'
  have hrs : ∀ q ∈ rs, q.setsCounter = false := by decide
  obtain ⟨hs, hs', -, hcur, hline, -, -, ht⟩ := calls_keep_order source .silent rs .string hrs rfl
  exact ⟨hrs, rfl, by decide, by decide, hs, hs', hcur, hline, by decide, ht⟩

end BudgetLexer
