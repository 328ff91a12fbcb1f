import BudgetLexer.Proofs.Grammar.Tokens
import BudgetLexer.Proofs.Run

/-!
# Rendering tokens

Which lists of tokens a scan can give, and how such a list is written down: every token on its line,
after a space. A space keeps the token before it from going on, whatever the two are.

* `Spells k t v`: the text `t` is a lexeme of the kind `k`, with the literal `v`.
* `WellFormed`: lists of tokens that spell their kinds, on lines that leave room for the lexemes.
* `render`: the text of a list of tokens.
* `wellFormed_tokensOf`, `WellFormed.gives_render`: segments give well-formed lists, and each of these
  is given by its rendering.
* **`scan_render`**: the tokens of scans are the well-formed lists, and rendering is undone by a scan.
-/

namespace BudgetLexer

/-! ## Well-formed lists -/

/-- **The text is a lexeme of the kind**, with the given literal. -/
inductive Spells : Kind → Text → Value → Prop
  | spelling {k t} (h : k.spelling? = some t) : Spells k t .none
  | identifier {c b} (h : isLetter c = true) (h' : ∀ d ∈ b, isWord d = true)
      (hk : keyword? (c :: b) = none) : Spells .identifier (c :: b) .none
  | whole {ds x} (h : Digits ds) (hx : Numeral.read? ds = some x) : Spells .number ds (.float x)
  | fraction {ds fs x} (h : Digits ds) (h' : Digits fs)
      (hx : Numeral.read? (ds ++ '.' :: fs) = some x) :
      Spells .number (ds ++ '.' :: fs) (.float x)
  | string {b} (h : '"' ∉ b) : Spells .string ('"' :: (b ++ ['"'])) (.text b)

/-- **Well-formed lists of tokens**, the first line that is left for them being given. The token that
ends a scan is the last one and no other. -/
inductive WellFormed : Nat → List (Token Nat) → Prop
  | eof {reached line} (h : reached ≤ line) : WellFormed reached [⟨.eof, [], .none, line⟩]
  | cons {reached k t v line ts} (ht : Spells k t v) (hl : reached ≤ line)
      (h : WellFormed (line + Text.newlines t) ts) : WellFormed reached (⟨k, t, v, line⟩ :: ts)

/-- **The text of tokens**, from a given line on. Newlines lead to the line of each token, and a space
parts it from the one before. -/
def render (reached : Nat) : List (Token Nat) → Text
  | [] => []
  | t :: ts =>
    List.replicate (t.line - reached) '\n' ++ (if t.kind = .eof then [] else ' ' :: t.lexeme) ++
      render (t.line + Text.newlines t.lexeme) ts

variable {k : Kind} {t rest : Text} {v : Value} {line reached n : Nat} {ts : List (Token Nat)}
  {g : Segment} {gs : List Segment}

theorem Spells.ne_eof (h : Spells k t v) : k ≠ .eof := by
  rintro rfl
  cases h with
  | spelling h => cases h

theorem WellFormed.mono (h : WellFormed n ts) (hl : reached ≤ n) : WellFormed reached ts := by
  cases h with
  | eof h => exact .eof (Nat.le_trans hl h)
  | cons ht h hts => exact .cons ht (Nat.le_trans hl h) hts

/-! ## Segments give well-formed lists -/

theorem Segment.Fits.spells {u : Token Nat} (h : g.Fits rest) (hu : g.token? line = some u) :
    Spells u.kind u.lexeme u.literal := by
  cases h with
  | mark | longOperator | operator | slash =>
    simp only [Segment.token?, Option.map_eq_some_iff] at hu
    obtain ⟨k, hk, rfl⟩ := hu
    exact .spelling (Kind.ofSpelling?_eq_some_iff.1 hk)
  | whole h =>
    obtain ⟨x, hx, rfl⟩ := Option.map_eq_some_iff.1 hu
    exact .whole h hx
  | fraction h h' =>
    obtain ⟨x, hx, rfl⟩ := Option.map_eq_some_iff.1 hu
    exact .fraction h h' hx
  | @word c b _ h h' =>
    obtain rfl := Option.some.inj hu
    change Spells ((Kind.ofSpelling? (c :: b)).getD .identifier) (c :: b) .none
    cases hk : Kind.ofSpelling? (c :: b) with
    | some k => exact .spelling (Kind.ofSpelling?_eq_some_iff.1 hk)
    | none => exact .identifier h h' ((keyword?_eq_ofSpelling? h).trans hk)
  | @string b _ h =>
    obtain rfl := Option.some.inj hu
    change Spells .string _ (.text (b ++ ['"']).dropLast)
    rw [List.dropLast_concat]
    exact .string h
  | _ => cases hu

/-- **Segments give well-formed lists**: a line is left for each token when the one before it ends. -/
theorem wellFormed_tokensOf (h : Segmentation t gs) (line : Nat) :
    WellFormed line (tokensOf line gs) := by
  induction h generalizing line with
  | nil => exact .eof (Nat.le_refl _)
  | @cons g rest gs hg _ ih =>
    rw [tokensOf]
    cases hu : g.token? line with
    | none =>
      -- what is no token only takes lines
      exact (ih _).mono (Nat.le_add_right _ _)
    | some u =>
      obtain ⟨hl, hn⟩ := Segment.eq_of_token?_eq_some hu
      refine .cons (hg.spells hu) (Nat.le_of_eq hn.symm) ?_
      rw [hl, hn]
      exact ih _

/-! ## Parted texts -/

/-- The text begins with a blank or is empty: no lexeme goes on into it. -/
def Parted (t : Text) : Prop := ∀ c ∈ t.head?, c ∈ blanks

theorem parted_nil : Parted [] := fun c hc => by cases hc

namespace Parted

theorem stops {p : Char → Bool} (h : Parted t) (hp : blanks.any p = false) : Stops p t :=
  fun c hc => Bool.eq_false_iff.2 (List.any_eq_false.1 hp c (h c hc))

theorem head?_ne {c : Char} (h : Parted t) (hc : c ∉ blanks) : t.head? ≠ some c :=
  fun e => hc (h c e)

theorem not_beginsFraction (h : Parted t) : ¬ BeginsFraction t := by
  rintro ⟨c, r, rfl, -⟩
  exact absurd (h '.' rfl) (by decide)

theorem replicate_append (n : Nat) (h : Parted t) : Parted (List.replicate n '\n' ++ t) := by
  cases n with
  | zero => exact h
  | succ n =>
    intro c hc
    obtain rfl : '\n' = c := Option.some.inj hc
    decide

end Parted

theorem WellFormed.parted_render (h : WellFormed reached ts) : Parted (render reached ts) := by
  cases h with
  | eof =>
    rw [render, if_pos rfl, List.append_assoc]
    exact Parted.replicate_append _ parted_nil
  | cons ht =>
    rw [render, List.append_assoc]
    refine Parted.replicate_append _ ?_
    rw [if_neg ht.ne_eof]
    intro c hc
    obtain rfl : ' ' = c := Option.some.inj hc
    decide

/-! ## Lexemes between blanks -/

theorem form_of_spelling? (h : k.spelling? = some t) :
    t ∈ punctuation.map (fun c => [c]) ∨ t ∈ signs.map (fun c => [c]) ∨
      t ∈ signs.map (fun c => [c, '=']) ∨ t = ['/'] ∨
        t.head?.any isLetter = true ∧ t.all isWord = true := by
  have key : ∀ k : Kind, ∀ u ∈ k.spelling?, u ∈ punctuation.map (fun c => [c]) ∨
      u ∈ signs.map (fun c => [c]) ∨ u ∈ signs.map (fun c => [c, '=']) ∨ u = ['/'] ∨
        u.head?.any isLetter = true ∧ u.all isWord = true := by
    intro k
    cases k <;> decide
  exact key k t h

/-- **A lexeme before a blank is one segment**, and the token of the segment is the one spelled. -/
theorem Spells.exists_fits (h : Spells k t v) (hr : Parted rest) :
    ∃ g : Segment, g.Fits rest ∧ g.text = t ∧ ∀ line, g.token? line = some ⟨k, t, v, line⟩ := by
  have hw : Stops isWord rest := hr.stops (by decide)
  have hd : Stops isDigit rest := hr.stops (by decide)
  cases h with
  | spelling h =>
    rcases form_of_spelling? h with hs | hs | hs | rfl | ⟨hl, hb⟩
    · obtain ⟨c, hc, rfl⟩ := List.mem_map.1 hs
      exact ⟨_, .mark hc, rfl, Segment.token?_of_spelling? h (Or.inl rfl)⟩
    · obtain ⟨c, hc, rfl⟩ := List.mem_map.1 hs
      exact ⟨_, .operator hc (hr.head?_ne (by decide)), rfl,
        Segment.token?_of_spelling? h (Or.inr (Or.inr (Or.inl rfl)))⟩
    · obtain ⟨c, hc, rfl⟩ := List.mem_map.1 hs
      exact ⟨_, .longOperator hc, rfl, Segment.token?_of_spelling? h (Or.inr (Or.inl rfl))⟩
    · exact ⟨_, .slash (hr.head?_ne (by decide)) (hr.head?_ne (by decide)), rfl,
        Segment.token?_of_spelling? h (Or.inr (Or.inr (Or.inr rfl)))⟩
    · cases t with
      | nil => cases hl
      | cons c b =>
        have hb' : ∀ d ∈ b, isWord d = true := fun d hd =>
          List.all_eq_true.1 hb d (List.mem_cons_of_mem _ hd)
        refine ⟨_, .word hl hb' hw, rfl, fun line => ?_⟩
        rw [Segment.token?, Kind.ofSpelling?_eq_some_iff.2 h]
        rfl
  | identifier h h' hk =>
    refine ⟨_, .word h h' hw, rfl, fun line => ?_⟩
    rw [Segment.token?, ← keyword?_eq_ofSpelling? h, hk]
    rfl
  | whole h hx => exact ⟨_, .whole h hd hr.not_beginsFraction, rfl, Segment.token?_number hx⟩
  | fraction h h' hx => exact ⟨_, .fraction h h' hd, rfl, Segment.token?_number hx⟩
  | @string b h =>
    refine ⟨_, .string h, rfl, fun line => ?_⟩
    change some (Token.mk _ _ (Value.text (b ++ ['"']).dropLast) _) = _
    rw [List.dropLast_concat]

/-! ## What a rendering gives -/

/-- The segments of the text are the tokens given, from a given line on, and none is in error. -/
def Gives (t : Text) (line : Nat) (ts : List (Token Nat)) : Prop :=
  ∃ gs, Segmentation t gs ∧ tokensOf line gs = ts ∧ diagnosticsOf line gs = []

namespace Gives

theorem nil : Gives [] line [⟨.eof, [], .none, line⟩] := ⟨[], .nil, rfl, rfl⟩

theorem space (h : Gives rest line ts) : Gives (' ' :: rest) line ts := by
  obtain ⟨gs, hs, rfl, hd⟩ := h
  exact ⟨⟨.blank, [' ']⟩ :: gs, .cons (.blank (by decide)) hs, rfl, hd⟩

theorem newline (h : Gives rest (line + 1) ts) : Gives ('\n' :: rest) line ts := by
  obtain ⟨gs, hs, rfl, hd⟩ := h
  exact ⟨⟨.blank, ['\n']⟩ :: gs, .cons (.blank (by decide)) hs, rfl, hd⟩

theorem replicate (n : Nat) (h : Gives rest (line + n) ts) :
    Gives (List.replicate n '\n' ++ rest) line ts := by
  induction n generalizing line with
  | zero => exact h
  | succ n ih =>
    rw [List.replicate_succ, List.cons_append]
    refine newline (ih ?_)
    rwa [Nat.add_assoc, Nat.add_comm 1 n]

theorem newlines (hl : reached ≤ line) (h : Gives rest line ts) :
    Gives (List.replicate (line - reached) '\n' ++ rest) reached ts := by
  refine replicate _ ?_
  rwa [Nat.add_sub_cancel' hl]

theorem token (ht : Spells k t v) (hr : Parted rest)
    (h : Gives rest (line + Text.newlines t) ts) :
    Gives (t ++ rest) line (⟨k, t, v, line⟩ :: ts) := by
  obtain ⟨gs, hs, rfl, hd⟩ := h
  obtain ⟨g, hg, rfl, hu⟩ := ht.exists_fits hr
  refine ⟨g :: gs, .cons hg hs, ?_, ?_⟩
  · rw [tokensOf, hu]
    rfl
  · rw [diagnosticsOf, Segment.diagnostic?_of_token? (hu line), hd]
    rfl

end Gives

/-- **A rendering gives the tokens back**: what is between them are blanks. -/
theorem WellFormed.gives_render (h : WellFormed reached ts) :
    Gives (render reached ts) reached ts := by
  induction h with
  | eof hl =>
    rw [render, if_pos rfl, List.append_assoc]
    exact .newlines hl .nil
  | cons ht hl h ih =>
    rw [render, if_neg ht.ne_eof, List.append_assoc]
    exact .newlines hl (.space (.token ht h.parted_render ih))

/-- **The tokens of scans are the well-formed lists.** Every scan gives one, and a list is well-formed
exactly when a scan of its rendering gives it back, with nothing to report. -/
theorem scan_render (reporter : Reporter) :
    (∀ source, WellFormed 1 (scan source reporter).tokens) ∧
      (∀ ts, WellFormed 1 ts ↔
        (Scanner.scanTokens { source := render 1 ts, reporter }).result = .ok ts.length ∧
          (scan (render 1 ts) reporter).tokens = ts ∧
          (scan (render 1 ts) reporter).reporter = reporter) ∧
      ∀ source, (scan (render 1 (scan source reporter).tokens) reporter).tokens =
        (scan source reporter).tokens := by
  have hwell : ∀ source, WellFormed 1 (scan source reporter).tokens := by
    intro source
    obtain ⟨gs, h, -⟩ := existsUnique_segmentation source
    rw [(scan_of_segmentation h reporter).2.1]
    exact wellFormed_tokensOf h 1
  -- a rendering has a segmentation, and a source has no other
  have hback : ∀ ts, WellFormed 1 ts →
      (Scanner.scanTokens { source := render 1 ts, reporter }).result = .ok ts.length ∧
        (scan (render 1 ts) reporter).tokens = ts ∧
        (scan (render 1 ts) reporter).reporter = reporter := by
    intro ts h
    obtain ⟨gs, hs, rfl, hd⟩ := h.gives_render
    obtain ⟨hres, htok, hrep⟩ := scan_of_segmentation hs reporter
    refine ⟨hres, htok, ?_⟩
    rw [hrep, hd]
    rfl
  refine ⟨hwell, fun ts => ⟨hback ts, fun h => ?_⟩, fun source => (hback _ (hwell source)).2.1⟩
  rw [← h.2.1]
  exact hwell _

/-- A string of two lines, and what stands right after it. -/
theorem scan_render_after_string :
    let ts : List (Token Nat) := [⟨.string, ['"', '\n', '"'], .text ['\n'], 1⟩,
      ⟨.minus, ['-'], .none, 2⟩, ⟨.eof, [], .none, 4⟩]
    WellFormed 1 ts ∧ render 1 ts = [' ', '"', '\n', '"', ' ', '-', '\n', '\n'] ∧
      (scan (render 1 ts) .silent).tokens = ts := by
  intro ts
  have hts : WellFormed 1 ts :=
    .cons (.string (b := ['\n']) (by decide)) (by decide)
      (.cons (.spelling rfl) (by decide) (.eof (by decide)))
  exact ⟨hts, by decide, (((scan_render .silent).2.1 ts).1 hts).2.1⟩

end BudgetLexer
