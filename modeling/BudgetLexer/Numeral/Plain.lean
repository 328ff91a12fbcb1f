import BudgetLexer.Numeral

/-!
# Plain numerals

The numerals that the language itself has: digits, and at most a point with more digits. Each of them
is read as the value nearest to the number it writes.

* `plain ds fs`: the numeral with the digits `ds` before the point and `fs` after it.
* `read?_plain`: its value.
-/

namespace BudgetLexer.Numeral

/-- The numeral with given digits before and after the point; without digits after it there is no
point. -/
def plain (ds fs : Text) : Text := ds ++ if fs = [] then [] else '.' :: fs

variable {ds fs : Text}

/-! ## Digits are ordinary characters -/

theorem toNat_of_isDigit {c : Char} (h : isDigit c = true) : 48 ≤ c.toNat ∧ c.toNat ≤ 57 := by
  simpa [isDigit, Char.le_def, UInt32.le_iff_toNat_le] using h

theorem mem_plain {c : Char} (hd : ∀ d ∈ ds, isDigit d = true) (hf : ∀ d ∈ fs, isDigit d = true)
    (h : c ∈ plain ds fs) : c = '.' ∨ isDigit c = true := by
  unfold plain at h
  split at h
  · exact Or.inr (hd c (by simpa using h))
  · rcases List.mem_append.1 h with h | h
    · exact Or.inr (hd c h)
    · rcases List.mem_cons.1 h with h | h
      · exact Or.inl h
      · exact Or.inr (hf c h)

theorem toNat_of_mem_plain {c : Char} (hd : ∀ d ∈ ds, isDigit d = true)
    (hf : ∀ d ∈ fs, isDigit d = true) (h : c ∈ plain ds fs) : 46 ≤ c.toNat ∧ c.toNat ≤ 57 := by
  rcases mem_plain hd hf h with rfl | h
  · decide
  · have := toNat_of_isDigit h
    omega

/-! ## Reading -/

theorem trim_eq_self {t : Text} (h : ∀ c ∈ t, isBlank c = false) : trim t = t := by
  have key : ∀ u : Text, (∀ c ∈ u, isBlank c = false) → u.dropWhile isBlank = u := by
    intro u hu
    cases u with
    | nil => rfl
    | cons c u => simp [hu c (by simp)]
  rw [trim, key t h, key t.reverse fun c hc => h c (List.mem_reverse.1 hc), List.reverse_reverse]

theorem separated_of_no_underscore {t : Text} (h : '_' ∉ t) (b : Bool) : separated b t = true := by
  induction t generalizing b with
  | nil => rfl
  | cons c t ih =>
    have hc : c ≠ '_' := fun e => h (by simp [e])
    simp [separated, hc, ih fun hm => h (List.mem_cons_of_mem _ hm)]

theorem takeWhile_of_all {p : Char → Bool} {t : Text} (h : ∀ c ∈ t, p c = true) :
    t.takeWhile p = t ∧ t.dropWhile p = [] := by
  have ht : (t ++ []).takeWhile p = t ++ [].takeWhile p := List.takeWhile_append_of_pos h
  have hd : (t ++ []).dropWhile p = [].dropWhile p := List.dropWhile_append_of_pos h
  simp only [List.append_nil, List.takeWhile_nil, List.dropWhile_nil] at ht hd
  exact ⟨ht, hd⟩

theorem cutExponent_zero (n : Nat) : cutExponent n 0 = 0 := by
  unfold cutExponent
  omega

theorem decimal?_plain (hne : ds ≠ []) (hd : ∀ d ∈ ds, isDigit d = true)
    (hf : ∀ d ∈ fs, isDigit d = true) :
    decimal? (plain ds fs) = some ⟨natOf (ds ++ fs), -fs.length⟩ := by
  obtain ⟨hdt, hdd⟩ := takeWhile_of_all hd
  obtain ⟨hft, hfd⟩ := takeWhile_of_all hf
  have hdot : ¬ isDigit '.' = true := by decide
  by_cases h : fs = []
  · subst h
    simp [decimal?, plain, hdt, hdd, hne, exponent?, cutExponent_zero]
  · simp [decimal?, plain, h, List.takeWhile_append_of_pos hd, List.dropWhile_append_of_pos hd,
      List.takeWhile_cons_of_neg hdot, List.dropWhile_cons_of_neg hdot, hft, hfd, hne, exponent?,
      cutExponent_zero]

/-- A text that begins with a digit is the name of no value. -/
theorem map_toLower_ne {c : Char} {t name : Text} {n : Char} (h : isDigit c = true)
    (hn : 58 ≤ n.toNat) : (c :: t).map Char.toLower ≠ n :: name := by
  intro e
  have hc := toNat_of_isDigit h
  have hl : c.toLower = c := dif_neg fun h' => by
    have h₁ := UInt32.le_iff_toNat_le.1 h'.1
    have h₂ : c.toNat < 65 := by omega
    exact absurd h₁ (Nat.not_le.2 h₂)
  have : c = n := by simpa [hl] using congrArg List.head? e
  subst this
  omega

theorem unsigned?_plain (hne : ds ≠ []) (hd : ∀ d ∈ ds, isDigit d = true)
    (hf : ∀ d ∈ fs, isDigit d = true) :
    unsigned? (plain ds fs) = some (Decimal.toBinary64 ⟨natOf (ds ++ fs), -fs.length⟩) := by
  have hu : '_' ∉ plain ds fs := fun hm => by
    have := toNat_of_mem_plain hd hf hm
    revert this
    decide
  have hfilter : (plain ds fs).filter (· ≠ '_') = plain ds fs := by
    rw [List.filter_eq_self]
    intro c hc
    simpa using fun e : c = '_' => hu (e ▸ hc)
  cases ds with
  | nil => exact absurd rfl hne
  | cons d ds =>
    have hd' := hd d (by simp)
    have hnames : ∀ (n : Char) (name : Text), 58 ≤ n.toNat →
        (plain (d :: ds) fs).map Char.toLower ≠ n :: name := fun n name hn =>
      map_toLower_ne hd' hn
    unfold unsigned?
    dsimp only
    rw [if_neg, if_neg, if_pos (separated_of_no_underscore hu _), hfilter,
      decimal?_plain hne hd hf]
    · rfl
    · exact hnames 'n' _ (by decide)
    · rintro (e | e)
      · exact hnames 'i' _ (by decide) e
      · exact hnames 'i' _ (by decide) e

/-- **A plain numeral is read** as the value nearest to the number that its digits write, its point
moved back over the digits after it. -/
theorem read?_plain (hne : ds ≠ []) (hd : ∀ d ∈ ds, isDigit d = true)
    (hf : ∀ d ∈ fs, isDigit d = true) :
    read? (plain ds fs) = some (Decimal.toBinary64 ⟨natOf (ds ++ fs), -fs.length⟩) := by
  have hmap : (plain ds fs).map asciiDigit = plain ds fs := by
    have h : ∀ c ∈ plain ds fs, asciiDigit c = id c := fun c hc =>
      asciiDigit_of_ascii (by have := toNat_of_mem_plain hd hf hc; omega)
    rw [List.map_congr_left h, List.map_id]
  have htrim : trim (plain ds fs) = plain ds fs := trim_eq_self fun c hc => by
    have := toNat_of_mem_plain hd hf hc
    simp [isBlank]
    omega
  unfold read?
  rw [hmap, htrim]
  have hhead : ∀ c r, plain ds fs = c :: r → isDigit c = true := by
    intro c r e
    cases ds with
    | nil => exact absurd rfl hne
    | cons d ds =>
      have : d = c := by simpa [plain] using congrArg List.head? e
      exact this ▸ hd d (by simp)
  split
  · next r e => exact absurd (hhead _ _ e) (by decide)
  · next r e => exact absurd (hhead _ _ e) (by decide)
  · exact unsigned?_plain hne hd hf

end BudgetLexer.Numeral
