import BudgetLexer.Numeral.Plain
import BudgetLexer.Proofs.Grammar.Unique

/-!
# The tokens of segments

* `Form.mayHoldBlank`, `Segment.Fits.blank_not_mem`: the segments without blanks.
* `Segment.Fits.isSome_token?`: the segments that are tokens are those of a token's form.
* `Segment.diagnostic?_of_token?`, `Fits.eq_of_diagnostic?_eq_some`: the segments that are in error.
-/

namespace BudgetLexer

/-- The forms of the segments that may hold a blank. -/
def Form.mayHoldBlank : Form → Bool
  | .lineComment | .blockComment | .blank | .string | .openString => true
  | _ => false

namespace Segment

variable {g : Segment} {rest : Text} {line : Nat} {t : Token Nat}

theorem token?_number {t : Text} {x : Binary64} (h : Numeral.read? t = some x) (line : Nat) :
    token? line ⟨.number, t⟩ = some ⟨.number, t, .float x, line⟩ := by
  simp only [token?, h, Option.map_some]

theorem token?_of_spelling? {f : Form} {k : Kind} {t : Text} (h : k.spelling? = some t)
    (hf : f = .mark ∨ f = .longOperator ∨ f = .operator ∨ f = .slash) (line : Nat) :
    token? line ⟨f, t⟩ = some ⟨k, t, .none, line⟩ := by
  have ho := Kind.ofSpelling?_eq_some_iff.2 h
  rcases hf with rfl | rfl | rfl | rfl <;> simp only [token?, ho, Option.map_some]

theorem eq_of_token?_eq_some (h : g.token? line = some t) : t.lexeme = g.text ∧ t.line = line := by
  obtain ⟨f, u⟩ := g
  cases f with
  | mark | longOperator | operator | slash | number =>
    simp only [token?, Option.map_eq_some_iff] at h
    obtain ⟨k, -, rfl⟩ := h
    exact ⟨rfl, rfl⟩
  | word | string =>
    simp only [token?, Option.some.injEq] at h
    exact h ▸ ⟨rfl, rfl⟩
  | _ => simp [token?] at h

theorem Fits.exists_plain (h : g.Fits rest) (hg : g.form = .number) :
    ∃ ds fs, Digits ds ∧ (∀ c ∈ fs, isDigit c = true) ∧ g.text = Numeral.plain ds fs := by
  cases h with
  | @whole ds _ h => exact ⟨ds, [], h, by simp, by simp [Numeral.plain]⟩
  | @fraction ds fs _ h h' => exact ⟨ds, fs, h, h'.2, by rw [Numeral.plain, if_neg h'.1]⟩
  | _ => cases hg

/-- **A segment is a token exactly when it has the form of one.** -/
theorem Fits.isSome_token? (h : g.Fits rest) (line : Nat) :
    (g.token? line).isSome = g.form.isToken := by
  have hn := h.exists_plain
  cases h with
  | mark h =>
    have key : ∀ c ∈ punctuation, (Kind.ofSpelling? [c]).isSome := forall_mem_of_all (by decide)
    simpa [token?, Form.isToken] using key _ h
  | longOperator h =>
    have key : ∀ c ∈ signs, (Kind.ofSpelling? [c, '=']).isSome := forall_mem_of_all (by decide)
    simpa [token?, Form.isToken] using key _ h
  | operator h =>
    have key : ∀ c ∈ signs, (Kind.ofSpelling? [c]).isSome := forall_mem_of_all (by decide)
    simpa [token?, Form.isToken] using key _ h
  | whole | fraction =>
    obtain ⟨ds, fs, hd, hf, e⟩ := hn rfl
    rw [token?_number (e ▸ Numeral.read?_plain hd.1 hd.2 hf)]
    rfl
  | _ => rfl

/-- **Blanks are in comments and strings only**, or by themselves. -/
theorem Fits.blank_not_mem {c : Char} (h : g.Fits rest) (hf : g.form.mayHoldBlank = false)
    (hc : c ∈ blanks) : c ∉ g.text := by
  have hplain : c ∉ punctuation ∧ c ∉ signs ∧ c ≠ '=' ∧ c ≠ '/' ∧ c ≠ '.' ∧ isDigit c = false ∧
      isLetter c = false ∧ isWord c = false :=
    forall_mem_of_all (p := fun c => c ∉ punctuation ∧ c ∉ signs ∧ c ≠ '=' ∧ c ≠ '/' ∧ c ≠ '.' ∧
      isDigit c = false ∧ isLetter c = false ∧ isWord c = false) (by decide) c hc
  obtain ⟨hmark, hsign, hequal, hslash, hpoint, hdigit, hletter, hword⟩ := hplain
  have hrun : ∀ {p : Char → Bool} {t : Text}, p c = false → (∀ d ∈ t, p d = true) → c ∉ t :=
    fun hp ht hm => by simpa [hp] using ht c hm
  cases h with
  | mark h => exact fun hm => hmark (List.mem_singleton.1 hm ▸ h)
  | longOperator h =>
    refine List.not_mem_cons_of_ne_of_not_mem ?_ (mt List.mem_singleton.1 hequal)
    exact fun e => hsign (e ▸ h)
  | operator h => exact fun hm => hsign (List.mem_singleton.1 hm ▸ h)
  | slash => exact mt List.mem_singleton.1 hslash
  | whole h => exact hrun hdigit h.2
  | fraction h h' =>
    refine List.not_mem_append (hrun hdigit h.2) ?_
    exact List.not_mem_cons_of_ne_of_not_mem hpoint (hrun hdigit h'.2)
  | word h h' =>
    refine List.not_mem_cons_of_ne_of_not_mem ?_ (hrun hword h')
    exact fun e => by rw [e, h] at hletter; cases hletter
  | stray h => exact fun hm => h (List.mem_singleton.1 hm ▸ Or.inr (Or.inr (Or.inl hc)))
  | _ => cases hf

theorem diagnostic?_of_token? (h : g.token? line = some t) (n : Nat) : g.diagnostic? n = none := by
  obtain ⟨f, u⟩ := g
  cases f with
  | openString | stray => cases h
  | _ => rfl

theorem Fits.eq_of_diagnostic?_eq_some {d : Diagnostic} (h : g.Fits rest)
    (hd : g.diagnostic? line = some d) :
    (d = .onLine line "Unexpected character.".toList ∧ g.text.length = 1) ∨
      (d = .onLine (line + Text.newlines g.text) "Unterminated string.".toList ∧
        g.text.head? = some '"' ∧ rest = []) := by
  cases h with
  | stray => exact Or.inl ⟨(Option.some.inj hd).symm, rfl⟩
  | openString => exact Or.inr ⟨(Option.some.inj hd).symm, rfl, rfl⟩
  | _ => cases hd

end Segment

theorem Segmentation.fits_of_mem {s : Text} {g : Segment} {gs : List Segment}
    (h : Segmentation s gs) (hg : g ∈ gs) : ∃ rest, g.Fits rest := by
  induction h with
  | nil => cases hg
  | @cons g' rest gs hf _ ih =>
    rcases List.mem_cons.1 hg with rfl | hg
    · exact ⟨rest, hf⟩
    · exact ih hg

end BudgetLexer
