import BudgetLexer.Proofs.Numeral
import BudgetLexer.Proofs.Rendering

/-!
# Numbers are rounded correctly

The literal of a number is the floating-point value nearest to what its digits write, however many they
are. Only this exact number counts, so zeros around the digits change nothing and a greater number never
has a smaller literal.

* `scan_plain`: a plain numeral alone is scanned as one number.
* `exists_roundsTo_of_mem_tokens`: each number that a scan finds is a plain numeral, with what this is
  rounded to.
* **`number_literals_are_rounded`**: the literals of all scans.
-/

namespace BudgetLexer

variable {ds fs rest : Text}

/-! ## Scanning a numeral -/

theorem Segment.fits_plain (hd : Digits ds) (hf : ∀ c ∈ fs, isDigit c = true)
    (hr : Stops isDigit rest) (hpoint : ¬ BeginsFraction rest) :
    Fits ⟨.number, Numeral.plain ds fs⟩ rest := by
  by_cases h : fs = []
  · subst h
    rw [Numeral.plain, if_pos rfl, List.append_nil]
    exact .whole hd hr hpoint
  · rw [Numeral.plain, if_neg h]
    exact .fraction hd ⟨h, hf⟩ hr

theorem Segmentation.single {g : Segment} (h : g.Fits []) : Segmentation g.text [g] := by
  have hseg := Segmentation.cons h .nil
  rwa [List.append_nil] at hseg

theorem not_beginsFraction_nil : ¬ BeginsFraction [] := by
  rintro ⟨c, r, h, -⟩
  cases h

theorem scan_plain (hd : Digits ds) (hf : ∀ c ∈ fs, isDigit c = true) (reporter : Reporter) :
    ∃ y, RoundsTo (Numeral.value (Numeral.plain ds fs)) y ∧
      (scan (Numeral.plain ds fs) reporter).tokens =
        [⟨.number, Numeral.plain ds fs, .float y, 1⟩, ⟨.eof, [], .none, 1⟩] ∧
      (scan (Numeral.plain ds fs) reporter).reporter = reporter := by
  obtain ⟨y, hread, hround⟩ := Numeral.exists_roundsTo hd hf
  have hfits := Segment.fits_plain hd hf stops_nil not_beginsFraction_nil
  obtain ⟨-, htok, hrep⟩ := scan_of_segmentation (.single hfits) reporter
  have hlines : Text.newlines (Numeral.plain ds fs) = 0 :=
    Scanner.newlines_eq_zero (hfits.blank_not_mem rfl (by decide))
  refine ⟨y, hround, ?_, hrep⟩
  rw [htok, tokensOf, tokensOf, Segment.token?_number hread, hlines]
  rfl

/-! ## The numbers of a scan -/

theorem WellFormed.spells_of_mem {n : ℕ} {ts : List (Token Nat)} {t : Token Nat}
    (h : WellFormed n ts) (ht : t ∈ ts) : t.kind = .eof ∨ Spells t.kind t.lexeme t.literal := by
  induction h with
  | eof => exact Or.inl (List.mem_singleton.1 ht ▸ rfl)
  | cons hs _ _ ih =>
    rcases List.mem_cons.1 ht with rfl | ht
    · exact Or.inr hs
    · exact ih ht

theorem Spells.exists_roundsTo {t : Text} {v : Value} (h : Spells .number t v) :
    ∃ ds fs y, Digits ds ∧ (∀ c ∈ fs, isDigit c = true) ∧ t = Numeral.plain ds fs ∧
      v = .float y ∧ RoundsTo (Numeral.value t) y := by
  obtain ⟨ds, fs, hd, hf, rfl, x, hx, rfl⟩ : ∃ ds fs, Digits ds ∧ (∀ c ∈ fs, isDigit c = true) ∧
      t = Numeral.plain ds fs ∧ ∃ x, Numeral.read? t = some x ∧ v = .float x := by
    cases h with
    | spelling h => cases h
    | @whole _ x hd hx => exact ⟨t, [], hd, by simp, by simp [Numeral.plain], x, hx, rfl⟩
    | @fraction ds fs x hd hf hx =>
      exact ⟨ds, fs, hd, hf.2, by rw [Numeral.plain, if_neg hf.1], x, hx, rfl⟩
  obtain ⟨y, hy, hr⟩ := Numeral.exists_roundsTo hd hf
  obtain rfl : x = y := Option.some.inj (hx.symm.trans hy)
  exact ⟨ds, fs, x, hd, hf, rfl, rfl, hr⟩

/-- **The numbers that a scan finds** are plain numerals with what these are rounded to. -/
theorem exists_roundsTo_of_mem_tokens {source : Text} {reporter : Reporter} {t : Token Nat}
    (ht : t ∈ (scan source reporter).tokens) (hk : t.kind = .number) :
    ∃ ds fs y, Digits ds ∧ (∀ c ∈ fs, isDigit c = true) ∧ t.lexeme = Numeral.plain ds fs ∧
      t.literal = .float y ∧ RoundsTo (Numeral.value t.lexeme) y := by
  obtain ⟨gs, h, -⟩ := existsUnique_segmentation source
  rw [(scan_of_segmentation h reporter).2.1] at ht
  have hs := (wellFormed_tokensOf h 1).spells_of_mem ht
  rw [hk] at hs
  exact (hs.resolve_left (by decide)).exists_roundsTo

/-- **Number literals are correctly rounded.** A scan does not fail, and each plain numeral alone gives
one number. Each number of a scan is written by digits, with more digits after a point or without, and
its literal is the value nearest to the number that these write, among values of either sign: of two
equally near ones the one with the even significand, zero up to half the least magnitude, and the
infinity from half a step above the greatest magnitude on. It has no sign, and is always a number.
Between the numbers of any two scans, the literals are in the order of what the lexemes write, and zeros
before the digits or at the end of the fraction do not change them. -/
theorem number_literals_are_rounded (source : Text) (reporter : Reporter) :
    (∃ n, (Scanner.scanTokens { source, reporter }).result = .ok n) ∧
      (∀ ds fs, Digits ds → (∀ c ∈ fs, isDigit c = true) →
        ∃ y, (scan (Numeral.plain ds fs) reporter).tokens =
          [⟨.number, Numeral.plain ds fs, .float y, 1⟩, ⟨.eof, [], .none, 1⟩]) ∧
      ∀ t ∈ (scan source reporter).tokens, t.kind = .number →
        (∃ ds fs, Digits ds ∧ (∀ c ∈ fs, isDigit c = true) ∧ t.lexeme = Numeral.plain ds fs ∧
          Numeral.value t.lexeme = natOf ds + natOf fs / 10 ^ fs.length) ∧
        ∃ y, t.literal = .float y ∧ RoundsTo (Numeral.value t.lexeme) y ∧
          ((∃ x, y = .finite false x) ∨ y = .infinite false) ∧
          (∀ x, y = .finite false x → ∀ (s : Bool) (z : Magnitude),
            |x.value - Numeral.value t.lexeme| ≤ |z.signed s - Numeral.value t.lexeme|) ∧
          (y = .finite false .zero ↔ Numeral.value t.lexeme ≤ 2 ^ (-1075 : ℤ)) ∧
          (y = .infinite false ↔ 2 ^ 1024 - 2 ^ 970 ≤ Numeral.value t.lexeme) ∧
          ∀ (source' : Text) (reporter' : Reporter), ∀ u ∈ (scan source' reporter').tokens,
            u.kind = .number → ∃ z, u.literal = .float z ∧
              (Numeral.value t.lexeme ≤ Numeral.value u.lexeme → y.Le z) ∧
              ∀ ds fs i j, Digits ds → t.lexeme = Numeral.plain ds fs →
                u.lexeme = Numeral.plain (zeros i ++ ds) (fs ++ zeros j) → z = y := by
  obtain ⟨gs, h, -⟩ := existsUnique_segmentation source
  refine ⟨⟨_, (scan_of_segmentation h reporter).1⟩, fun ds fs hd hf => ?_, fun t ht hk => ?_⟩
  · obtain ⟨y, -, htok, -⟩ := scan_plain hd hf reporter
    exact ⟨y, htok⟩
  obtain ⟨ds, fs, y, hd, hf, hlex, hy, hr⟩ := exists_roundsTo_of_mem_tokens ht hk
  refine ⟨⟨ds, fs, hd, hf, hlex, hlex ▸ Numeral.value_plain hd.2⟩, y, hy, hr, hr.cases_eq,
    ?_, hr.eq_zero_iff, hr.eq_infinite_iff, ?_⟩
  · rintro x rfl
    exact hr.le_signed (Numeral.value_nonneg _)
  · intro source' reporter' u hu hk'
    obtain ⟨-, -, z, -, -, -, hz, hr'⟩ := exists_roundsTo_of_mem_tokens hu hk'
    refine ⟨z, hz, hr.mono hr', ?_⟩
    intro ds fs i j hd ht' hu'
    rw [hu', Numeral.value_plain_zeros hd, ← ht'] at hr'
    exact hr'.unique hr

/-- The number half way between two values goes to the even one. -/
theorem number_literal_of_tie :
    ∃ t ∈ (scan "9007199254740993".toList .silent).tokens, t.kind = .number ∧
      t.literal = .float (.finite false ⟨twoPow 52, 1075, by decide, by decide, by decide⟩) ∧
      ∃ y, t.literal = .float y ∧ RoundsTo (Numeral.value t.lexeme) y := by
  have ht : (⟨.number, "9007199254740993".toList,
      .float (.finite false ⟨twoPow 52, 1075, by decide, by decide, by decide⟩), 1⟩ : Token Nat) ∈
      (scan "9007199254740993".toList .silent).tokens := by decide +kernel
  obtain ⟨y, hy, hr, -⟩ := ((number_literals_are_rounded _ _).2.2 _ ht rfl).2
  exact ⟨_, ht, rfl, rfl, y, hy, hr⟩

end BudgetLexer
