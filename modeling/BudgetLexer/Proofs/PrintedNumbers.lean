import BudgetLexer.Proofs.Binary64.Layout
import BudgetLexer.Proofs.NumberLiterals

/-!
# Printed numbers read back

A number is printed as the shortest decimal that is rounded to it. Where its digits are written in place
they are a number of the language again; with an exponent they are not, since the language has none.

* `InPlace.scan_eq`, `WithExponent.scan_kinds`: what the two layouts are scanned as.
* `Magnitude.InRange`: the magnitudes that are written in place.
* `Magnitude.text_spec`, `Magnitude.scan_text_iff`: what the text of a magnitude writes, and when it is
  scanned as one number.
* **`printed_numbers_read_back`**: the numbers of all scans.
-/

namespace BudgetLexer

variable {t : Text} {x : Magnitude}

/-! ## Scanning the two layouts -/

theorem InPlace.scan_eq (h : InPlace t) (reporter : Reporter) :
    ∃ y, RoundsTo (Numeral.written t) y ∧
      (scan t reporter).tokens = [⟨.number, t, .float y, 1⟩, ⟨.eof, [], .none, 1⟩] ∧
      (scan t reporter).reporter = reporter := by
  obtain ⟨ds, fs, hd, hf, rfl⟩ := h
  rw [Numeral.written_plain hd.2 hf.2]
  exact scan_plain hd hf.2 reporter

theorem WithExponent.scan_kinds (h : WithExponent t) (reporter : Reporter) :
    ∃ k, (k = .plus ∨ k = .minus) ∧ (scan t reporter).tokens.map Token.kind =
      [.number, .identifier, k, .number, .eof] := by
  obtain ⟨d, fs, s, es, hd, hf, hs, hes, -, rfl⟩ := h
  have hdigits : Digits [d] := ⟨by simp, by simpa using hd⟩
  obtain ⟨y, hread, -⟩ := Numeral.exists_roundsTo hdigits hf
  have hnil : ∀ c ∈ ([] : Text), isDigit c = true := by simp
  obtain ⟨z, hread', -⟩ := Numeral.exists_roundsTo hes hnil
  rw [Numeral.plain, if_pos rfl, List.append_nil] at hread'
  have hsign : s ∈ punctuation ∧ isWord s = false := by
    rcases hs with rfl | rfl
    · decide
    · decide
  have hnumber : Segment.Fits ⟨.number, Numeral.plain [d] fs⟩ ('e' :: s :: es) :=
    Segment.fits_plain hdigits hf (stops_cons.2 (by decide)) (by rintro ⟨c, r, h, -⟩; cases h)
  have hword : Segment.Fits ⟨.word, ['e']⟩ (s :: es) :=
    .word (by decide) (by simp) (stops_cons.2 hsign.2)
  have hmark : Segment.Fits ⟨.mark, [s]⟩ es := .mark hsign.1
  have hlast : Segment.Fits ⟨.number, es⟩ [] := .whole hes stops_nil not_beginsFraction_nil
  have hseg := Segmentation.cons hnumber (.cons hword (.cons hmark (.single hlast)))
  have htok : (scan (Numeral.plain [d] fs ++ 'e' :: s :: es) reporter).tokens = _ :=
    (scan_of_segmentation hseg reporter).2.1
  have hname : Kind.ofSpelling? ['e'] = none := by decide
  obtain ⟨k, hk, hspelling⟩ : ∃ k, (k = .plus ∨ k = .minus) ∧ Kind.spelling? k = some [s] := by
    rcases hs with rfl | rfl
    · exact ⟨.plus, Or.inl rfl, rfl⟩
    · exact ⟨.minus, Or.inr rfl, rfl⟩
  refine ⟨k, hk, ?_⟩
  rw [htok]
  simp only [tokensOf, Segment.token?_number hread, Segment.token?_number hread',
    Segment.token?_of_spelling? hspelling (Or.inl rfl)]
  simp only [Segment.token?, hname]
  rfl

theorem scan_infinity (reporter : Reporter) :
    (scan "inf".toList reporter).tokens.map Token.kind = [.identifier, .eof] := by
  have hword : Segment.Fits ⟨.word, "inf".toList⟩ [] :=
    .word (c := 'i') (b := ['n', 'f']) (by decide) (forall_mem_of_all (by decide)) stops_nil
  rw [(scan_of_segmentation (.single hword) reporter).2.1]
  decide

/-! ## The texts of magnitudes -/

/-- The magnitude is zero, or the first figure of its text stands for a power of ten from `10 ^ -4` to
`10 ^ 15`. -/
def Magnitude.InRange (x : Magnitude) : Prop :=
  x = .zero ∨ ∃ e, FirstFigure (Numeral.written x.text) e ∧ -4 ≤ e ∧ e < 16

theorem Magnitude.eq_zero_iff : x = .zero ↔ x.significand = 0 := by
  rw [← value_eq_zero_iff]
  constructor
  · rintro rfl
    exact value_zero
  · exact fun h => eq_of_value_eq (h.trans value_zero.symm)

theorem isShortest_zero : IsShortest .zero 0 0 where
  rounds := by
    have hself := RoundsTo.self .zero
    rwa [Magnitude.value_zero] at hself
  figures := ⟨0, 0, by decide, by rw [Nat.cast_zero, zero_mul]⟩
  least j hj := absurd hj (Nat.not_lt_zero j)
  nearest w _ _ := by
    rw [Magnitude.value_zero, sub_zero, abs_zero]
    exact abs_nonneg _

/-- **The text of a magnitude** writes a shortest decimal that is rounded to it, in place or with an
exponent according to its range. -/
theorem Magnitude.text_spec (x : Magnitude) : (∃ k, IsShortest x k (Numeral.written x.text)) ∧
    (x.InRange → InPlace x.text) ∧ (¬ x.InRange → WithExponent x.text) := by
  by_cases hx : x.significand = 0
  · have hzero := eq_zero_iff.2 hx
    have htext : x.text = Numeral.plain ['0'] ['0'] := by
      rw [text, if_pos hx]
      rfl
    have hd : Digits ['0'] := ⟨by simp, forall_mem_of_all (by decide)⟩
    have hwritten : Numeral.written x.text = 0 := by
      have hnat : natOf ['0'] = 0 := by decide
      rw [htext, Numeral.written_plain hd.2 hd.2, Numeral.value_plain hd.2, hnat, Nat.cast_zero,
        zero_div, add_zero]
    refine ⟨⟨0, ?_⟩, fun _ => htext ▸ ⟨_, _, hd, hd, rfl⟩, fun h => absurd (Or.inl hzero) h⟩
    rw [hwritten, hzero]
    exact isShortest_zero
  · obtain ⟨hwritten, e, he, hlayout⟩ := text_writes hx
    rw [← hwritten] at he
    refine ⟨hwritten ▸ isShortest_shortest hx, ?_, ?_⟩
    · rintro (hzero | ⟨e', he', hrange⟩)
      · exact absurd (eq_zero_iff.1 hzero) hx
      · obtain rfl := he.unique he'
        rcases hlayout with ⟨-, -, hplace⟩ | ⟨hout, -⟩
        · exact hplace
        · exact absurd hrange hout
    · intro hout
      rcases hlayout with ⟨hlow, hhigh, -⟩ | ⟨-, hexponent⟩
      · exact absurd (Or.inr ⟨e, he, hlow, hhigh⟩) hout
      · exact hexponent

/-- **The text of a magnitude is scanned as that magnitude** exactly when it is in range. -/
theorem Magnitude.scan_text_iff (x : Magnitude) (r : Reporter) :
    ((scan x.text r).tokens =
        [⟨.number, x.text, .float (.finite false x), 1⟩, ⟨.eof, [], .none, 1⟩] ∧
      (scan x.text r).reporter = r) ↔ x.InRange := by
  obtain ⟨⟨k, hshort⟩, hplace, hexponent⟩ := x.text_spec
  constructor
  · rintro ⟨htok, -⟩
    by_contra hout
    obtain ⟨s, -, hkinds⟩ := (hexponent hout).scan_kinds r
    rw [htok] at hkinds
    simp at hkinds
  · intro h
    obtain ⟨y, hround, htok, hrep⟩ := (hplace h).scan_eq r
    obtain rfl := hround.unique hshort.rounds
    exact ⟨htok, hrep⟩

/-- **Printed numbers read back.** The literal of a number is a magnitude or the infinity. The text of a
magnitude writes a decimal that is rounded to it; no decimal of fewer figures is, and of those of as many
figures this one is nearest. Scanned alone, the text gives one number with the same literal, then the
end, and nothing is reported, exactly when the number is zero or its first figure stands for a power of
ten from `10 ^ -4` to `10 ^ 15`. Other magnitudes give two numbers with a name and a sign between them,
and the infinity gives a name. -/
theorem printed_numbers_read_back (source : Text) (reporter : Reporter) :
    ∀ t ∈ (scan source reporter).tokens, t.kind = .number →
      (∃ x, t.literal = .float (.finite false x) ∧
        (∃ k, IsShortest x k (Numeral.written t.literal.toText)) ∧
        (x.InRange → InPlace t.literal.toText) ∧ (¬ x.InRange → WithExponent t.literal.toText) ∧
        ∀ r : Reporter,
          ((scan t.literal.toText r).tokens =
              [⟨.number, t.literal.toText, .float (.finite false x), 1⟩, ⟨.eof, [], .none, 1⟩] ∧
            (scan t.literal.toText r).reporter = r ↔ x.InRange) ∧
          (¬ x.InRange → ∃ k, (k = .plus ∨ k = .minus) ∧
            (scan t.literal.toText r).tokens.map Token.kind =
              [.number, .identifier, k, .number, .eof])) ∨
      (t.literal = .float (.infinite false) ∧ ∀ r : Reporter,
        (scan t.literal.toText r).tokens.map Token.kind = [.identifier, .eof]) := by
  intro t ht hk
  obtain ⟨-, -, y, -, -, -, hy, hround⟩ := exists_roundsTo_of_mem_tokens ht hk
  rw [hy]
  rcases hround.cases_eq with ⟨x, rfl⟩ | rfl
  · obtain ⟨hshort, hplace, hexponent⟩ := x.text_spec
    exact Or.inl ⟨x, rfl, hshort, hplace, hexponent, fun r =>
      ⟨x.scan_text_iff r, fun h => (hexponent h).scan_kinds r⟩⟩
  · exact Or.inr ⟨rfl, scan_infinity⟩

/-- A number that is out of range: its text has an exponent. -/
theorem printed_number_out_of_range :
    ∃ t ∈ (scan "100000000000000000000000".toList .silent).tokens, t.kind = .number ∧
      t.literal.toText = "1e+23".toList ∧ ∃ x, t.literal = .float (.finite false x) ∧
        ∃ k, IsShortest x k (Numeral.written t.literal.toText) := by
  have ht : (⟨.number, "100000000000000000000000".toList,
      .float (.finite false ⟨5960464477539062, 1098, by decide, by decide, by decide⟩), 1⟩ : Token Nat) ∈
      (scan "100000000000000000000000".toList .silent).tokens := by decide +kernel
  refine ⟨_, ht, rfl, by decide +kernel, ?_⟩
  rcases printed_numbers_read_back _ _ _ ht rfl with ⟨x, hx, hshort, -⟩ | ⟨h, -⟩
  · exact ⟨x, hx, hshort⟩
  · cases h

end BudgetLexer
