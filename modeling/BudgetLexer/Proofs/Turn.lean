import BudgetLexer.Proofs.Grammar.Tokens
import BudgetLexer.Scanner.Progress

/-!
# A turn of a scan

A scan goes in turns: each one marks the cursor and reads one token, comment or blank. A turn moves
the cursor over the segment that fits there, and leaves what this segment gives.

* `Scanner.consume s g`: the scanner `s` after the segment `g`.
* **`mark_scanToken`**: a turn consumes the segment at the cursor.
-/

namespace BudgetLexer

/-- Report diagnostics one after the other. -/
def Reporter.reportAll (r : Reporter) (ds : List Diagnostic) : Reporter := ds.foldl report r

namespace Scanner

/-- The scanner with its cursor moved over the text `t`, its newlines counted. -/
def beyond (s : Scanner) (t : Text) : Scanner :=
  { s with current := s.current + t.length, line := s.line + Text.newlines t }

/-- **The scanner after a segment**, which it has read in one turn. -/
def consume (s : Scanner) (g : Segment) : Scanner :=
  { s.mark.beyond g.text with
    tokens := s.tokens ++ (g.token? s.line).toList
    reporter := s.reporter.reportAll (g.diagnostic? s.line).toList }

variable {s : Scanner} {c : Char} {b r t rest : Text} {g : Segment}

/-! ## The cursor -/

theorem newlines_eq_zero (h : '\n' ∉ t) : Text.newlines t = 0 := List.count_eq_zero.2 h

theorem beyond_beyond (s : Scanner) (t u : Text) : (s.beyond t).beyond u = s.beyond (t ++ u) := by
  simp [beyond, Nat.add_assoc]

theorem rest_beyond (e : s.rest = t ++ r) : (s.beyond t).rest = r := by
  change s.source.drop (s.current + t.length) = r
  rw [← List.drop_drop, show s.source.drop s.current = t ++ r from e, List.drop_left]

theorem pass_eq_beyond (e : s.rest = t ++ r) : s.pass t.length = s.beyond t := by
  rw [pass, e, List.take_left, beyond]

theorem skip_eq_beyond (h : '\n' ∉ t) : s.skip t.length = s.beyond t := by
  rw [skip, beyond, newlines_eq_zero h, Nat.add_zero]

theorem slice_eq (e : s.rest = b ++ t ++ r) :
    Text.slice s.source (s.current + b.length) (s.current + b.length + t.length) = t := by
  rw [Text.slice, Nat.add_sub_cancel_left, ← List.drop_drop,
    show s.source.drop s.current = b ++ (t ++ r) by rw [← List.append_assoc]; exact e,
    List.drop_left, List.take_left]

theorem lexeme_beyond (e : s.rest = t ++ r) : (s.mark.beyond t).lexeme = t :=
  slice_eq (b := []) e

/-! ## What a turn leaves -/

theorem beyond_eq_consume (g : Segment) (ht : g.token? s.line = none)
    (hd : g.diagnostic? s.line = none) : s.mark.beyond g.text = s.consume g := by
  rw [consume, ht, hd]
  simp [beyond, mark, Reporter.reportAll]

theorem addToken_beyond (g : Segment) {k : Kind} {v : Value} (e : s.rest = g.text ++ rest)
    (ht : g.token? s.line = some ⟨k, g.text, v, s.line⟩) (hd : g.diagnostic? s.line = none) :
    (s.mark.beyond g.text).addToken k v = s.consume g := by
  rw [addToken, lexeme_beyond e, consume, ht, hd]
  rfl

theorem report_beyond (g : Segment) {m : Text} (ht : g.token? s.line = none)
    (hd : g.diagnostic? s.line = some (.onLine (s.line + Text.newlines g.text) m)) :
    (s.mark.beyond g.text).report m = s.consume g := by
  rw [report, consume, ht, hd]
  simp [beyond, mark, Reporter.reportAll]

/-! ## Reading on from the first character -/

theorem scanToken_mark (e : s.rest = c :: r) (hc : c ≠ '\n') :
    s.mark.scanToken = (s.mark.beyond [c]).scanFrom c := by
  rw [scanToken_of_rest (s := s.mark) e,
    show s.mark.skip 1 = _ from skip_eq_beyond (t := [c]) (by simpa using hc.symm)]

theorem rest_mark_beyond (e : s.rest = c :: r) : (s.mark.beyond [c]).rest = r :=
  rest_beyond (s := s.mark) e

theorem scanToken_mark_of_punctuation (e : s.rest = c :: r) (hc : c ∈ punctuation) :
    ∃ k : Kind, k.spelling? = some [c] ∧
      s.mark.scanToken = .ok () ((s.mark.beyond [c]).addToken k .none) := by
  have key : ∀ d ∈ punctuation, d ≠ '\n' ∧ (mark? d).isSome := forall_mem_of_all (by decide)
  obtain ⟨hn, hm⟩ := key c hc
  obtain ⟨k, hk⟩ := Option.isSome_iff_exists.1 hm
  refine ⟨k, spelling?_of_mark? hk, ?_⟩
  rw [scanToken_mark e hn, scanFrom, hk]

theorem scanToken_mark_of_sign (e : s.rest = c :: r) (hc : c ∈ signs) :
    ∃ k l : Kind, k.spelling? = some [c] ∧ l.spelling? = some [c, '='] ∧
      s.mark.scanToken = .ok () ((s.mark.beyond [c]).operator k l) := by
  have key : ∀ d ∈ signs, d ≠ '\n' ∧ mark? d = none ∧ (operator? d).isSome :=
    forall_mem_of_all (by decide)
  obtain ⟨hn, hm, ho⟩ := key c hc
  obtain ⟨⟨k, l⟩, hk⟩ := Option.isSome_iff_exists.1 ho
  obtain ⟨h₁, h₂⟩ := spelling?_of_operator? hk
  refine ⟨k, l, h₁, h₂, ?_⟩
  rw [scanToken_mark e hn, scanFrom, hm, hk]

theorem scanToken_mark_of_blank (e : s.rest = c :: r) (hc : c ∈ blanks) :
    s.mark.scanToken = .ok () (s.mark.beyond [c]) := by
  have key : ∀ d ∈ blanks, d = '\n' ∨ d ≠ '\n' ∧ mark? d = none ∧ operator? d = none ∧
      isSpace d = true ∧ d ≠ '/' := forall_mem_of_all (by decide)
  rcases key c hc with rfl | ⟨hn, hm, ho, hp, hd⟩
  · rw [scanToken_of_rest (s := s.mark) e]
    rfl
  · rw [scanToken_mark e hn, scanFrom, hm, ho]
    dsimp only
    rw [if_neg hd, if_pos hp]

theorem scanToken_mark_slash (e : s.rest = '/' :: r) :
    s.mark.scanToken = .ok () (s.mark.beyond ['/']).slash := scanToken_mark e (by decide)

theorem scanToken_mark_quote (e : s.rest = '"' :: r) :
    s.mark.scanToken = .ok () (s.mark.beyond ['"']).string := scanToken_mark e (by decide)

theorem scanFrom_of_not_special (hc : c ∉ special) (s : Scanner) : s.scanFrom c =
    if isDigit c then s.number else if isLetter c then .ok () s.identifier
    else .ok () (s.report "Unexpected character.".toList) := by
  have hm : mark? c = none := by
    have key : ∀ e ∈ marks, e.1 ∈ special := by decide
    exact Option.eq_none_iff_forall_ne_some.2 fun k hk => hc (key _ (mem_of_lookup hk))
  have ho : operator? c = none := by
    have key : ∀ e ∈ operators, e.1 ∈ special := by decide
    exact Option.eq_none_iff_forall_ne_some.2 fun k hk => hc (key _ (mem_of_lookup hk))
  have hne : ∀ d ∈ special, c ≠ d := fun d hd e => hc (e ▸ hd)
  have hs : isSpace c = false := by
    simp [isSpace, hne ' ' (by decide), hne '\r' (by decide), hne '\t' (by decide)]
  rw [scanFrom, hm, ho]
  dsimp only
  rw [if_neg (hne '/' (by decide)), hs, if_neg Bool.false_ne_true, if_neg (hne '\n' (by decide)),
    if_neg (hne '"' (by decide))]

theorem accept_of_rest (e : s.rest = c :: r) (hc : c ≠ '\n') :
    s.accept [c] = (true, s.beyond [c]) := by
  rw [accept, e]
  dsimp only
  rw [if_pos rfl, ← skip_eq_beyond (by simpa using hc.symm)]
  rfl

theorem accept_of_head?_ne (h : s.rest.head? ≠ some c) : s.accept [c] = (false, s) := by
  unfold accept
  split
  · rfl
  · next d r e =>
    rw [if_neg]
    intro hcd
    exact h (by rw [e, List.head?_cons, (List.cons.inj hcd).1])

theorem operator_of_rest (e : s.rest = '=' :: r) (k l : Kind) :
    s.operator k l = (s.beyond ['=']).addToken l .none := by
  rw [operator, accept_of_rest e (by decide)]

theorem operator_of_head?_ne (h : s.rest.head? ≠ some '=') (k l : Kind) :
    s.operator k l = s.addToken k .none := by
  rw [operator, accept_of_head?_ne h]

theorem slash_of_slash (e : s.rest = '/' :: (b ++ rest)) (hb : '\n' ∉ b)
    (hr : rest = [] ∨ rest.head? = some '\n') : s.slash = s.beyond ('/' :: b) := by
  have hs : (s.beyond ['/']).rest = b ++ rest := rest_beyond (t := ['/']) e
  rw [slash, accept_of_rest e (by decide)]
  dsimp only
  rw [lineComment, hs, Extent.line_append hb hr, skip_eq_beyond hb, beyond_beyond]
  rfl

theorem slash_of_star (e : s.rest = '*' :: (b ++ rest))
    (hb : Extent.blockComment (b ++ rest) = b.length) : s.slash = s.beyond ('*' :: b) := by
  have hr : (s.beyond ['*']).rest = b ++ rest := rest_beyond (t := ['*']) e
  have hne : s.rest.head? ≠ some '/' := by simp [e]
  rw [slash, accept_of_head?_ne hne]
  dsimp only
  rw [accept_of_rest e (by decide)]
  dsimp only
  rw [blockComment, hr, hb, pass_eq_beyond hr, beyond_beyond]
  rfl

theorem slash_of_head?_ne (h : s.rest.head? ≠ some '/') (h' : s.rest.head? ≠ some '*') :
    s.slash = s.addToken .slash .none := by
  rw [slash, accept_of_head?_ne h]
  dsimp only
  rw [accept_of_head?_ne h']

theorem number_of_rest {x : Binary64} (e : s.rest = b ++ rest) (hb : '\n' ∉ b)
    (hn : Extent.number (b ++ rest) = b.length)
    (hx : Numeral.read? (s.beyond b).lexeme = some x) :
    s.number = .ok () ((s.beyond b).addToken .number (.float x)) := by
  rw [number, e, hn, skip_eq_beyond hb]
  simp only [hx]

theorem identifier_of_rest (e : s.rest = b ++ rest) (hb : ∀ d ∈ b, isWord d = true)
    (hr : Stops isWord rest) :
    s.identifier = (s.beyond b).addToken (wordKind (s.beyond b).lexeme) .none := by
  have hn : '\n' ∉ b := fun hm => absurd (hb _ hm) (by decide)
  rw [identifier, e, Extent.word_append hb hr, skip_eq_beyond hn]

theorem string_of_rest (e : s.rest = b ++ '"' :: rest) (hb : '"' ∉ b) :
    s.string = (s.beyond (b ++ ['"'])).addToken .string
      (.text (Text.slice s.source (s.start + 1) (s.current + b.length))) := by
  have hend : (s.beyond b).isAtEnd = false := by
    rw [Bool.eq_false_iff]
    intro h
    rw [← rest_eq_nil_iff, rest_beyond e] at h
    cases h
  rw [string, e, Extent.stringBody_append hb (Or.inr rfl), pass_eq_beyond e]
  dsimp only
  rw [hend, if_neg Bool.false_ne_true, show (s.beyond b).skip 1 = (s.beyond b).beyond ['"'] from
    skip_eq_beyond (t := ['"']) (by decide), beyond_beyond]
  simp [beyond, ← Nat.add_assoc]

theorem string_of_open (e : s.rest = b) (hb : '"' ∉ b) :
    s.string = (s.beyond b).report "Unterminated string.".toList := by
  have e' : s.rest = b ++ [] := by rw [e, List.append_nil]
  have hend : (s.beyond b).isAtEnd = true := (rest_eq_nil_iff _).1 (rest_beyond e')
  rw [string, e', Extent.stringBody_append hb (Or.inl rfl), pass_eq_beyond e']
  dsimp only
  rw [hend, if_pos rfl]

/-! ## One turn -/

theorem scanToken_mark_of_isWord (e : s.rest = c :: r) (hc : isWord c = true) :
    s.mark.scanToken = if isDigit c then (s.mark.beyond [c]).number
      else if isLetter c then .ok () (s.mark.beyond [c]).identifier
      else .ok () ((s.mark.beyond [c]).report "Unexpected character.".toList) := by
  have hn : c ≠ '\n' := fun h => absurd (h ▸ hc) (by decide)
  rw [scanToken_mark e hn, scanFrom_of_not_special (not_mem_special_of_isWord hc)]

theorem scanToken_mark_of_digits {ds : Text} (fs : Text) (hd : Digits ds)
    (hf : ∀ c ∈ fs, isDigit c = true) (e : s.rest = Numeral.plain ds fs ++ rest)
    (hn : Extent.number (Numeral.plain ds.tail fs ++ rest) = (Numeral.plain ds.tail fs).length) :
    s.mark.scanToken = .ok () (s.consume ⟨.number, Numeral.plain ds fs⟩) := by
  obtain ⟨d, ds, rfl⟩ := List.exists_cons_of_ne_nil hd.1
  have hdig : isDigit d = true := hd.2 d List.mem_cons_self
  have hr : (s.mark.beyond [d]).rest = Numeral.plain ds fs ++ rest :=
    rest_beyond (s := s.mark) (t := [d]) e
  have hb : '\n' ∉ Numeral.plain ds fs := fun hm => by
    have hds : ∀ c ∈ ds, isDigit c = true := fun c hc => hd.2 c (List.mem_cons_of_mem _ hc)
    have := Numeral.toNat_of_mem_plain hds hf hm
    revert this
    decide
  have hread := Numeral.read?_plain hd.1 hd.2 hf
  have hw : (s.mark.beyond [d]).beyond (Numeral.plain ds fs) =
      s.mark.beyond (Numeral.plain (d :: ds) fs) := beyond_beyond ..
  rw [scanToken_mark_of_isWord e (by simp [isWord, hdig]), if_pos hdig,
    number_of_rest hr hb hn (by rw [hw, lexeme_beyond e]; exact hread), hw]
  exact congrArg (Call.ok ())
    (addToken_beyond ⟨.number, Numeral.plain (d :: ds) fs⟩ e (Segment.token?_number hread _) rfl)

theorem addToken_spelling {f : Form} {k : Kind} (e : s.rest = t ++ rest)
    (hk : k.spelling? = some t) (hf : f = .mark ∨ f = .longOperator ∨ f = .operator ∨ f = .slash) :
    (s.mark.beyond t).addToken k .none = s.consume ⟨f, t⟩ := by
  refine addToken_beyond ⟨f, t⟩ e (Segment.token?_of_spelling? hk hf _) ?_
  rcases hf with rfl | rfl | rfl | rfl <;> rfl

theorem mark_scanToken_string (e : s.rest = '"' :: (b ++ ['"']) ++ rest) (h : '"' ∉ b) :
    s.mark.scanToken = .ok () (s.consume ⟨.string, '"' :: (b ++ ['"'])⟩) := by
  have hb : s.rest = '"' :: (b ++ '"' :: rest) := by simpa using e
  have hl : Text.slice s.source (s.current + 1) (s.current + 1 + b.length) = b :=
    slice_eq (b := ['"']) (r := '"' :: rest) (by simpa using e)
  rw [scanToken_mark_quote hb, string_of_rest (rest_mark_beyond hb) h, beyond_beyond]
  refine congrArg (Call.ok ()) (addToken_beyond ⟨.string, _⟩ e ?_ rfl)
  change _ = some (Token.mk _ _ (Value.text (Text.slice s.source (s.current + 1) _)) _)
  rw [show (s.mark.beyond ['"']).current + b.length = s.current + 1 + b.length from rfl, hl]
  simp [Segment.token?]

theorem mark_scanToken_word (e : s.rest = c :: b ++ rest) (h : isLetter c = true)
    (h' : ∀ d ∈ b, isWord d = true) (hr : Stops isWord rest) :
    s.mark.scanToken = .ok () (s.consume ⟨.word, c :: b⟩) := by
  have hw : isWord c = true := by simp [isWord, h]
  rw [scanToken_mark_of_isWord e hw, isDigit_eq_false_of_isLetter h, if_neg Bool.false_ne_true,
    if_pos h, identifier_of_rest (rest_mark_beyond e) h' hr, beyond_beyond]
  refine congrArg (Call.ok ()) (addToken_beyond ⟨.word, c :: b⟩ e ?_ rfl)
  rw [show (s.mark.beyond ([c] ++ b)).lexeme = c :: b from lexeme_beyond e, wordKind,
    keyword?_eq_ofSpelling? h]
  rfl

theorem mark_scanToken_stray (e : s.rest = c :: rest) (h : ¬ Begins c) :
    s.mark.scanToken = .ok () (s.consume ⟨.stray, [c]⟩) := by
  have hn : c ≠ '\n' := by
    rintro rfl
    exact h (by decide)
  have hs := not_mem_special_of_not_begins h
  simp only [Begins, not_or] at h
  rw [scanToken_mark e hn, scanFrom_of_not_special hs, if_neg h.2.2.2.2.2.1, if_neg h.2.2.2.2.2.2]
  refine congrArg (Call.ok ()) (report_beyond ⟨.stray, [c]⟩ rfl ?_)
  rw [newlines_eq_zero (t := [c]) (by simpa using hn.symm)]
  rfl

/-- **A turn consumes the segment at the cursor**, and does not fail. -/
theorem mark_scanToken (h : g.Fits rest) (e : s.rest = g.text ++ rest) :
    s.mark.scanToken = .ok () (s.consume g) := by
  cases h with
  | mark h =>
    obtain ⟨k, hk, hs⟩ := scanToken_mark_of_punctuation e h
    rw [hs, addToken_spelling e hk (Or.inl rfl)]
  | longOperator h =>
    obtain ⟨k, l, -, hl, hs⟩ := scanToken_mark_of_sign e h
    rw [hs, operator_of_rest (rest_mark_beyond e), beyond_beyond]
    exact congrArg (Call.ok ()) (addToken_spelling e hl (Or.inr (Or.inl rfl)))
  | operator h hr =>
    obtain ⟨k, l, hk, -, hs⟩ := scanToken_mark_of_sign e h
    rw [hs, operator_of_head?_ne ((rest_mark_beyond e).symm ▸ hr),
      addToken_spelling e hk (Or.inr (Or.inr (Or.inl rfl)))]
  | slash h h' =>
    have hr : (s.mark.beyond ['/']).rest = rest := rest_mark_beyond e
    rw [scanToken_mark_slash e, slash_of_head?_ne (hr ▸ h) (hr ▸ h'),
      addToken_spelling e rfl (Or.inr (Or.inr (Or.inr rfl)))]
  | lineComment h hr =>
    rw [scanToken_mark_slash e, slash_of_slash (rest_mark_beyond e) h hr, beyond_beyond]
    exact congrArg (Call.ok ()) (beyond_eq_consume ⟨.lineComment, _⟩ rfl rfl)
  | blockComment h =>
    rw [scanToken_mark_slash e, slash_of_star (rest_mark_beyond e)
      (by simpa using Extent.blockComment_append h), beyond_beyond]
    exact congrArg (Call.ok ()) (beyond_eq_consume ⟨.blockComment, _⟩ rfl rfl)
  | openComment h =>
    rw [scanToken_mark_slash e, slash_of_star (rest_mark_beyond e)
      (by simpa using Extent.blockComment_eq_length h), beyond_beyond]
    exact congrArg (Call.ok ()) (beyond_eq_consume ⟨.blockComment, _⟩ rfl rfl)
  | blank h =>
    rw [scanToken_mark_of_blank e h]
    exact congrArg (Call.ok ()) (beyond_eq_consume ⟨.blank, _⟩ rfl rfl)
  | string h => exact mark_scanToken_string e h
  | @openString b h =>
    have hb : s.rest = '"' :: b := by simpa using e
    rw [scanToken_mark_quote hb, string_of_open (rest_mark_beyond hb) h, beyond_beyond]
    exact congrArg (Call.ok ()) (report_beyond ⟨.openString, _⟩ rfl rfl)
  | @whole ds _ h hr hf =>
    have hp : ∀ t : Text, Numeral.plain t [] = t := fun t => by simp [Numeral.plain]
    have ht : ∀ c ∈ ds.tail, isDigit c = true := fun c hc => h.2 c (List.mem_of_mem_tail hc)
    have hd := scanToken_mark_of_digits [] h (by simp) (by rw [hp]; exact e)
      (by rw [hp]; exact Extent.number_append ht hr hf)
    rwa [hp] at hd
  | @fraction ds fs _ h h' hr =>
    have hp : ∀ t : Text, Numeral.plain t fs = t ++ '.' :: fs := fun t => by
      rw [Numeral.plain, if_neg h'.1]
    have ht : ∀ c ∈ ds.tail, isDigit c = true := fun c hc => h.2 c (List.mem_of_mem_tail hc)
    have hn := Extent.number_append_point ht h'.1 h'.2 hr
    have hd := scanToken_mark_of_digits fs h h'.2 (by rw [hp]; exact e)
      (by rw [hp]; simpa [Nat.add_assoc, Nat.add_comm] using hn)
    rwa [hp] at hd
  | word h h' hr => exact mark_scanToken_word e h h' hr
  | stray h => exact mark_scanToken_stray e h

end Scanner

end BudgetLexer
