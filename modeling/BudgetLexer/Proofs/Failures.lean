import BudgetLexer.Proofs.Turn
import BudgetLexer.Scanner.Request

/-!
# Failures

A call of a scanner may be made in any state: with the cursor past the end of the source, or with a
lexeme that begins anywhere. It fails only where there is no character to take, or where the text from
the start of the lexeme to the end of a number is no numeral; and the state that it leaves is told here
whole.

* `Scanner.Misread`: the number at the cursor is no numeral; `Scanner.Fails`: a request fails.
* `number_fails_iff`, `scanToken_fails_iff`: the two calls that may read a number.
* `exists_read?_of_digit`: a number that is read from its first digit on is a numeral.
* **`perform_fails_iff`**: the failures of all requests, in all states.
-/

namespace BudgetLexer

namespace Scanner

/-- **The number at the cursor is no numeral** together with what the lexeme has before it. The cursor
has come to its end. -/
inductive Misread (s : Scanner) : Failure → Scanner → Prop
  | mk {e} (he : NumberEnds s.source s.current e)
    (hr : Numeral.read? (Text.slice s.source s.start e) = none) :
    Misread s (.notANumeral (Text.slice s.source s.start e)) { s with current := e }

/-- **A request fails** for a reason, and leaves a state. Where there is no character to take, or no
kind of the name that is given, nothing is changed. -/
inductive Fails (s : Scanner) : Request → Failure → Scanner → Prop
  | advance (h : s.source.length ≤ s.current) : Fails s .advance .pastEnd s
  | scanToken (h : s.source.length ≤ s.current) : Fails s .scanToken .pastEnd s
  | number {f s'} (h : Misread s f s') : Fails s .number f s'
  | digit {c f s'} (hc : s.source[s.current]? = some c) (hd : isDigit c = true)
    (h : Misread s f s') : Fails s .scanToken f s'
  | addToken {name literal missing} (h : Kind.ofName name = .error missing) :
    Fails s (.addToken name literal) (.noKind missing) s

variable {s s' : Scanner} {f : Failure} {c : Char} {r : Text}

/-! ## Characters under the cursor -/

theorem getElem?_of_rest (e : s.rest = c :: r) : s.source[s.current]? = some c := by
  rw [← List.head?_drop, show s.source.drop s.current = c :: r from e, List.head?_cons]

theorem rest_of_getElem? (hc : s.source[s.current]? = some c) :
    s.rest = c :: s.source.drop (s.current + 1) := by
  obtain ⟨hlt, rfl⟩ := List.getElem?_eq_some_iff.1 hc
  exact List.drop_eq_getElem_cons hlt

theorem isAtEnd_iff : s.isAtEnd = true ↔ s.source.length ≤ s.current := decide_eq_true_iff

theorem result_scanFrom (hc : isDigit c = false) (s : Scanner) :
    (s.scanFrom c).result = .ok () := by
  simp only [scanFrom, hc, Bool.false_eq_true, if_false]
  repeat' split
  all_goals rfl

theorem scanFrom_of_isDigit (hc : isDigit c = true) (s : Scanner) : s.scanFrom c = s.number := by
  have hs : c ∉ special := not_mem_special_of_isWord (by simp [isWord, hc])
  rw [scanFrom_of_not_special hs, if_pos hc]

theorem map_fails_iff {α β : Type} (g : α → β) (x : Call α) :
    (x.map g).result = .error f ∧ (x.map g).scanner = s' ↔ x.result = .error f ∧ x.scanner = s' := by
  obtain ⟨result, t⟩ := x
  cases result <;> simp [Call.map, Except.map]

/-! ## Numbers -/

theorem number_cons (hc : isDigit c = true) (r : Text) :
    Extent.number (c :: r) = Extent.number r + 1 := by
  have hd : Extent.digits (c :: r) = Extent.digits r + 1 := by simp [Extent.digits, hc]
  unfold Extent.number
  rw [List.dropWhile_cons_of_pos hc, hd]
  split
  · split <;> omega
  · rfl

theorem numberEnds_succ_iff {e : Nat} (hc : s.source[s.current]? = some c)
    (hd : isDigit c = true) :
    NumberEnds s.source (s.current + 1) e ↔ NumberEnds s.source s.current e := by
  rw [numberEnds_iff, numberEnds_iff, show s.source.drop s.current = _ from rest_of_getElem? hc,
    number_cons hd]
  omega

theorem number_fails_iff :
    s.number.result = .error f ∧ s.number.scanner = s' ↔ Misread s f s' := by
  have he := numberEnds_number s.source s.current
  cases hr : Numeral.read? (s.skip (Extent.number s.rest)).lexeme with
  | some x =>
    have hn : s.number = .ok () ((s.skip (Extent.number s.rest)).addToken .number (.float x)) := by
      rw [number]
      simp only [hr]
    rw [hn]
    constructor
    · rintro ⟨hf, -⟩
      cases hf
    · rintro ⟨he', hr'⟩
      obtain rfl := he'.unique he
      cases hr.symm.trans hr'
  | none =>
    have hn : s.number = .fail (.notANumeral (s.skip (Extent.number s.rest)).lexeme)
        (s.skip (Extent.number s.rest)) := by
      rw [number]
      simp only [hr]
    rw [hn]
    constructor
    · rintro ⟨hf, rfl⟩
      obtain rfl := Except.error.inj hf
      exact .mk he hr
    · rintro ⟨he', hr'⟩
      obtain rfl := he'.unique he
      exact ⟨rfl, rfl⟩

theorem misread_skip_iff (hc : s.source[s.current]? = some c) (hd : isDigit c = true) :
    Misread (s.skip 1) f s' ↔ Misread s f s' := by
  constructor
  · rintro ⟨he, hr⟩
    exact .mk ((numberEnds_succ_iff hc hd).1 he) hr
  · rintro ⟨he, hr⟩
    exact .mk (s := s.skip 1) ((numberEnds_succ_iff hc hd).2 he) hr

theorem scanToken_fails_iff :
    s.scanToken.result = .error f ∧ s.scanToken.scanner = s' ↔ Fails s .scanToken f s' := by
  cases e : s.rest with
  | nil =>
    have hend : s.isAtEnd = true := s.rest_eq_nil_iff.1 e
    rw [scanToken_of_isAtEnd hend]
    constructor
    · rintro ⟨hf, rfl⟩
      obtain rfl := Except.error.inj hf
      exact .scanToken (isAtEnd_iff.1 hend)
    · intro h
      cases h with
      | scanToken => exact ⟨rfl, rfl⟩
      | digit hc =>
        rw [List.getElem?_eq_none (isAtEnd_iff.1 hend)] at hc
        cases hc
  | cons c r =>
    have hc := getElem?_of_rest e
    have hlt : ¬ s.source.length ≤ s.current := fun h => by
      rw [List.getElem?_eq_none h] at hc
      cases hc
    rw [scanToken_of_rest e]
    by_cases hd : isDigit c = true
    · rw [scanFrom_of_isDigit hd, number_fails_iff, misread_skip_iff hc hd]
      refine ⟨.digit hc hd, fun h => ?_⟩
      cases h with
      | scanToken h => exact absurd h hlt
      | digit _ _ h => exact h
    · rw [result_scanFrom (Bool.eq_false_iff.2 hd)]
      constructor
      · rintro ⟨hf, -⟩
        cases hf
      · intro h
        cases h with
        | scanToken h => exact absurd h hlt
        | digit hc' hd' =>
          obtain rfl := Option.some.inj (hc.symm.trans hc')
          exact absurd hd' hd

/-- **A number from its first digit on is a numeral.** -/
theorem exists_read?_of_digit (hc : isDigit c = true) (r : Text) :
    ∃ x, Numeral.read? ((c :: r).take (Extent.number (c :: r))) = some x := by
  obtain ⟨ds, fs, hds, hfs, e⟩ := Extent.exists_plain r
  have hcds : ∀ d ∈ c :: ds, isDigit d = true := by simpa [hc] using hds
  refine ⟨_, (congrArg Numeral.read? ?_).trans
    (Numeral.read?_plain (List.cons_ne_nil c ds) hcds hfs)⟩
  rw [number_cons hc, List.take_succ_cons, e]
  rfl

theorem not_misread (h : s.start = s.current) (hc : s.source[s.current]? = some c)
    (hd : isDigit c = true) : ¬ Misread s f s' := by
  rintro ⟨he, hr⟩
  have hrest : s.source.drop s.current = _ := rest_of_getElem? hc
  obtain ⟨x, hx⟩ := exists_read?_of_digit hd (s.source.drop (s.current + 1))
  rw [numberEnds_iff.1 he, h, Text.slice, Nat.add_sub_cancel_left, hrest, hx] at hr
  cases hr

/-! ## All requests -/

theorem advance_fails_iff :
    s.advance.result = .error f ∧ s.advance.scanner = s' ↔ Fails s .advance f s' := by
  unfold advance
  split
  · next e =>
    have hend := isAtEnd_iff.1 (s.rest_eq_nil_iff.1 e)
    constructor
    · rintro ⟨hf, rfl⟩
      obtain rfl := Except.error.inj hf
      exact .advance hend
    · rintro ⟨⟩
      exact ⟨rfl, rfl⟩
  · next e =>
    constructor
    · rintro ⟨hf, -⟩
      cases hf
    · intro h
      cases h with
      | advance h =>
        have hnil := s.rest_eq_nil_iff.2 (isAtEnd_iff.2 h)
        rw [hnil] at e
        cases e

theorem addToken_fails_iff {name : Text} {v : Value} :
    (s.perform (.addToken name v)).result = .error f ∧ (s.perform (.addToken name v)).scanner = s' ↔
      Fails s (.addToken name v) f s' := by
  rw [perform]
  cases hk : Kind.ofName name with
  | ok kind =>
    constructor
    · rintro ⟨hf, -⟩
      cases hf
    · rintro ⟨⟩
      next h => cases hk.symm.trans h
  | error missing =>
    constructor
    · rintro ⟨hf, rfl⟩
      obtain rfl := Except.error.inj hf
      exact .addToken hk
    · rintro ⟨⟩
      next h =>
      obtain rfl := Except.error.inj (hk.symm.trans h)
      exact ⟨rfl, rfl⟩

/-- **A request fails exactly as told**, and leaves the state that is told. -/
theorem fails_iff {r : Request} :
    (s.perform r).result = .error f ∧ (s.perform r).scanner = s' ↔ Fails s r f s' := by
  cases r with
  | advance => exact (map_fails_iff _ _).trans advance_fails_iff
  | scanToken => exact (map_fails_iff _ _).trans scanToken_fails_iff
  | number =>
    refine ((map_fails_iff _ _).trans number_fails_iff).trans ⟨.number, fun h => ?_⟩
    cases h with
    | number h => exact h
  | addToken name v => exact addToken_fails_iff
  | scanTokens =>
    refine (map_fails_iff _ _).trans ⟨fun h => ?_, fun h => by cases h⟩
    rw [scanTokens_ok] at h
    cases h.1
  | _ =>
    constructor
    · rintro ⟨hf, -⟩
      cases hf
    · rintro ⟨⟩

/-! ## The law -/

/-- **The failures of requests.** In every state a request fails exactly as told, and leaves the state
that is told. A number has one end. Reading a token does not fail for a number where the lexeme begins
at the cursor; and all requests but to advance, to read a token or a number, and to add a token of an
unknown kind are answered. -/
theorem perform_fails_iff (s : Scanner) :
    (∀ r f s', (s.perform r).result = .error f ∧ (s.perform r).scanner = s' ↔ Fails s r f s') ∧
      (∃ e, ∀ e', NumberEnds s.source s.current e' ↔ e' = e) ∧
      (∀ lexeme, (perform { s with start := s.current } .scanToken).result ≠
        .error (.notANumeral lexeme)) ∧
      ∀ (t : Text) (kind : Kind) (v : Value), ∀ r ∈ [Request.peek, .peekNext, .isAtEnd, .accept t,
          .string, .identifier, .blockComment, .addToken kind.name.toList v, .scanTokens],
        ∃ a, (s.perform r).result = .ok a := by
  refine ⟨fun r f s' => fails_iff, ⟨_, fun e' => numberEnds_iff⟩, fun lexeme h => ?_,
    fun t kind v r hr => ?_⟩
  · have hf := fails_iff.1 ⟨h, rfl⟩
    cases hf with
    | digit hc hd h => exact not_misread rfl hc hd h
  · cases hres : (s.perform r).result with
    | ok a => exact ⟨a, rfl⟩
    | error f =>
      have hf := fails_iff.1 ⟨hres, rfl⟩
      generalize (s.perform r).scanner = s' at hf
      simp only [List.mem_cons, List.not_mem_nil, or_false] at hr
      rcases hr with rfl | rfl | rfl | rfl | rfl | rfl | rfl | rfl | rfl
      all_goals cases hf
      next hk => rw [Kind.ofName_name] at hk; cases hk

/-- The lexeme begins before the number. -/
example :
    let s : Scanner := { source := ['x', '5', ' '], current := 1 }
    (s.perform .scanToken).result = .error (.notANumeral ['x', '5']) ∧
      (s.perform .scanToken).scanner = { s with current := 2 } :=
  ⟨rfl, rfl⟩

end Scanner

end BudgetLexer
