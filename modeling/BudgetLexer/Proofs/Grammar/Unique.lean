import BudgetLexer.Proofs.Grammar

/-!
# A source has one segmentation

The first character of a segment leaves few forms open, and the text after it decides between them and
tells how far the segment reaches.

* `Segment.Fits.eq_first`: a segment that fits is the one that is read off the text.
* `exists_fits`: a segment begins with every character.
* **`existsUnique_segmentation`**: every source has exactly one segmentation.
-/

namespace BudgetLexer

/-! ## First characters -/

/-- The characters that are no letter and no digit and begin something all the same. -/
def special : Text := punctuation ++ signs ++ blanks ++ ['/', '"']

/-- What the first character of a segment tells about its form. -/
inductive Lead
  | mark | sign | blank | slash | quote | digit | letter | stray
  deriving DecidableEq

/-- The lead that a character gives. -/
def leadOf (c : Char) : Lead :=
  if c ∈ punctuation then .mark else if c ∈ signs then .sign else if c ∈ blanks then .blank
  else if c = '/' then .slash else if c = '"' then .quote else if isDigit c then .digit
  else if isLetter c then .letter else .stray

theorem not_mem_special_iff {c : Char} : c ∉ special ↔
    c ∉ punctuation ∧ c ∉ signs ∧ c ∉ blanks ∧ c ≠ '/' ∧ c ≠ '"' := by
  simp only [special, List.mem_append, List.mem_cons, List.not_mem_nil, or_false, not_or, and_assoc,
    ne_eq]

theorem not_mem_special_of_isWord {c : Char} (h : isWord c = true) : c ∉ special := by
  have key : ∀ d ∈ special, isWord d = false := forall_mem_of_all (by decide)
  intro hm
  rw [key c hm] at h
  exact Bool.noConfusion h

theorem not_mem_special_of_not_begins {c : Char} (h : ¬ Begins c) : c ∉ special := by
  simp only [Begins, not_or] at h
  exact not_mem_special_iff.2 ⟨h.1, h.2.1, h.2.2.1, h.2.2.2.1, h.2.2.2.2.1⟩

theorem isDigit_eq_false_of_isLetter {c : Char} (h : isLetter c = true) : isDigit c = false := by
  rw [Bool.eq_false_iff]
  intro hd
  simp only [isLetter, isDigit, Bool.or_eq_true, Bool.and_eq_true, decide_eq_true_eq, beq_iff_eq,
    Char.le_def, UInt32.le_iff_toNat_le] at h hd
  rcases h with (h | h) | rfl
  · exact absurd (Nat.le_trans h.1 hd.2) (by decide)
  · exact absurd (Nat.le_trans h.1 hd.2) (by decide)
  · exact absurd hd (by decide)

theorem leadOf_of_not_special {c : Char} (h : c ∉ special) :
    leadOf c = if isDigit c then .digit else if isLetter c then .letter else .stray := by
  obtain ⟨h₁, h₂, h₃, h₄, h₅⟩ := not_mem_special_iff.1 h
  rw [leadOf, if_neg h₁, if_neg h₂, if_neg h₃, if_neg h₄, if_neg h₅]

theorem leadOf_of_mem_signs {c : Char} (h : c ∈ signs) : leadOf c = .sign := by
  exact forall_mem_of_all (p := fun d => leadOf d = .sign) (by decide) c h

theorem leadOf_of_mem_blanks {c : Char} (h : c ∈ blanks) : leadOf c = .blank := by
  exact forall_mem_of_all (p := fun d => leadOf d = .blank) (by decide) c h

theorem leadOf_slash : leadOf '/' = .slash := rfl

theorem leadOf_quote : leadOf '"' = .quote := rfl

theorem leadOf_of_isDigit {c : Char} (h : isDigit c = true) : leadOf c = .digit := by
  rw [leadOf_of_not_special (not_mem_special_of_isWord (by simp [isWord, h])), if_pos h]

theorem leadOf_of_isLetter {c : Char} (h : isLetter c = true) : leadOf c = .letter := by
  rw [leadOf_of_not_special (not_mem_special_of_isWord (by simp [isWord, h])), if_pos h,
    isDigit_eq_false_of_isLetter h, if_neg Bool.false_ne_true]

theorem leadOf_of_not_begins {c : Char} (h : ¬ Begins c) : leadOf c = .stray := by
  have hs := not_mem_special_of_not_begins h
  simp only [Begins, not_or] at h
  rw [leadOf_of_not_special hs, if_neg h.2.2.2.2.2.1, if_neg h.2.2.2.2.2.2]

/-! ## The first segment -/

namespace Segment

/-- The segment that a text of first character `c` begins with. -/
def first (c : Char) (t : Text) : Segment :=
  match leadOf c with
  | .mark => ⟨.mark, [c]⟩
  | .sign => if t.head? = some '=' then ⟨.longOperator, [c, '=']⟩ else ⟨.operator, [c]⟩
  | .blank => ⟨.blank, [c]⟩
  | .slash =>
    if t.head? = some '/' then ⟨.lineComment, c :: t.take (Extent.line t.tail + 1)⟩
    else if t.head? = some '*' then ⟨.blockComment, c :: t.take (Extent.blockComment t.tail + 1)⟩
    else ⟨.slash, [c]⟩
  | .quote =>
    if '"' ∈ t then ⟨.string, c :: t.take (Extent.stringBody t + 1)⟩ else ⟨.openString, c :: t⟩
  | .digit => ⟨.number, c :: t.take (Extent.number t)⟩
  | .letter => ⟨.word, c :: t.take (Extent.word t)⟩
  | .stray => ⟨.stray, [c]⟩

variable {g : Segment} {rest : Text}

theorem first_of_digits {d : Char} {ds t : Text} (h : Digits (d :: ds)) :
    first d t = ⟨.number, d :: t.take (Extent.number t)⟩ := by
  rw [first, leadOf_of_isDigit (h.2 d List.mem_cons_self)]

/-- **A segment that fits is read off the text**: its form and its length are told by the characters
of the text. -/
theorem Fits.eq_first (h : g.Fits rest) : ∃ c t, g.text ++ rest = c :: t ∧ g = first c t := by
  cases h with
  | @mark c _ h => exact ⟨c, rest, rfl, by rw [first, leadOf, if_pos h]⟩
  | @longOperator c _ h =>
    refine ⟨c, '=' :: rest, rfl, ?_⟩
    rw [first, leadOf_of_mem_signs h]
    rfl
  | @operator c _ h hr =>
    refine ⟨c, rest, rfl, ?_⟩
    rw [first, leadOf_of_mem_signs h]
    exact (if_neg hr).symm
  | slash h h' =>
    refine ⟨'/', rest, rfl, ?_⟩
    rw [first, leadOf_slash]
    exact ((if_neg h).trans (if_neg h')).symm
  | @lineComment b _ h hr =>
    refine ⟨'/', '/' :: (b ++ rest), rfl, ?_⟩
    rw [first, leadOf_slash]
    change _ = Segment.mk _ ('/' :: '/' :: (b ++ rest).take (Extent.line (b ++ rest)))
    rw [Extent.line_append h hr, List.take_left]
  | @blockComment b _ h =>
    have e : b ++ '*' :: '/' :: rest = (b ++ ['*', '/']) ++ rest := by simp
    refine ⟨'/', '*' :: (b ++ '*' :: '/' :: rest), by simp, ?_⟩
    rw [first, leadOf_slash]
    change _ = Segment.mk _ ('/' :: '*' :: (b ++ _).take (Extent.blockComment (b ++ _)))
    rw [Extent.blockComment_append h, e, List.take_left' (by simp)]
  | @openComment b h =>
    -- nothing follows, so the body is all that is left
    refine ⟨'/', '*' :: b, by simp, ?_⟩
    rw [first, leadOf_slash]
    change _ = Segment.mk _ ('/' :: '*' :: List.take (Extent.blockComment b) b)
    rw [Extent.blockComment_eq_length h, List.take_length]
  | @blank c _ h => exact ⟨c, rest, rfl, by rw [first, leadOf_of_mem_blanks h]⟩
  | @string b _ h =>
    have e : b ++ '"' :: rest = (b ++ ['"']) ++ rest := by simp
    refine ⟨'"', b ++ '"' :: rest, by simp, ?_⟩
    rw [first, leadOf_quote]
    dsimp only
    rw [if_pos (by simp), Extent.stringBody_append h (Or.inr rfl), e, List.take_left' (by simp)]
  | @openString b h =>
    refine ⟨'"', b, by simp, ?_⟩
    rw [first, leadOf_quote]
    exact (if_neg h).symm
  | @whole ds _ h hr hf =>
    obtain ⟨d, ds, rfl⟩ := List.exists_cons_of_ne_nil h.1
    refine ⟨d, ds ++ rest, rfl, ?_⟩
    have hds : ∀ c ∈ ds, isDigit c = true := fun c hc => h.2 c (List.mem_cons_of_mem _ hc)
    rw [first_of_digits h, Extent.number_append hds hr hf, List.take_left]
  | @fraction ds fs _ h h' hr =>
    obtain ⟨d, ds, rfl⟩ := List.exists_cons_of_ne_nil h.1
    have e : ds ++ '.' :: (fs ++ rest) = (ds ++ '.' :: fs) ++ rest := by simp
    refine ⟨d, ds ++ '.' :: (fs ++ rest), by simp, ?_⟩
    have hds : ∀ c ∈ ds, isDigit c = true := fun c hc => h.2 c (List.mem_cons_of_mem _ hc)
    rw [first_of_digits h, Extent.number_append_point hds h'.1 h'.2 hr, e,
      List.take_left' (by simp; omega), List.cons_append]
  | @word c b _ h h' hr =>
    refine ⟨c, b ++ rest, rfl, ?_⟩
    rw [first, leadOf_of_isLetter h]
    dsimp only
    rw [Extent.word_append h' hr, List.take_left]
  | @stray c _ h => exact ⟨c, rest, rfl, by rw [first, leadOf_of_not_begins h]⟩

theorem Fits.unique {g' : Segment} {rest' : Text} (h : g.Fits rest) (h' : g'.Fits rest')
    (e : g.text ++ rest = g'.text ++ rest') : g = g' ∧ rest = rest' := by
  obtain ⟨c, t, e₁, hg⟩ := h.eq_first
  obtain ⟨c', t', e₂, hg'⟩ := h'.eq_first
  obtain ⟨rfl, rfl⟩ : c = c' ∧ t = t' := by
    rw [e₁, e₂] at e
    exact List.cons.inj e
  have hgg : g = g' := hg.trans hg'.symm
  subst hgg
  exact ⟨rfl, List.append_cancel_left e⟩

theorem Fits.text_ne_nil (h : g.Fits rest) : g.text ≠ [] := by
  cases h with
  | whole h => exact h.1
  | _ => simp

/-! ## A segment for every text -/

theorem exists_fits_slash (t : Text) : ∃ (g : Segment) (rest : Text),
    '/' :: t = g.text ++ rest ∧ g.Fits rest := by
  by_cases h₁ : t.head? = some '/'
  · obtain ⟨r, rfl⟩ := List.head?_eq_some_iff.1 h₁
    obtain ⟨b, rest, rfl, hb, hr⟩ := Extent.exists_run (· ≠ '\n') r
    refine ⟨⟨.lineComment, '/' :: '/' :: b⟩, rest, rfl, .lineComment (fun h => ?_) ?_⟩
    · simpa using hb _ h
    · cases rest with
      | nil => exact Or.inl rfl
      | cons c r => exact Or.inr (by simpa using hr)
  by_cases h₂ : t.head? = some '*'
  · obtain ⟨r, rfl⟩ := List.head?_eq_some_iff.1 h₂
    rcases Extent.exists_blockComment r with ⟨b, rest, rfl, hb⟩ | hr
    · exact ⟨⟨.blockComment, _⟩, rest, by simp, .blockComment hb⟩
    · exact ⟨⟨.blockComment, _⟩, [], by simp, .openComment hr⟩
  · exact ⟨⟨.slash, ['/']⟩, t, rfl, .slash h₁ h₂⟩

theorem exists_fits_digit {c : Char} (hc : isDigit c = true) (t : Text) :
    ∃ (g : Segment) (rest : Text), c :: t = g.text ++ rest ∧ g.Fits rest := by
  obtain ⟨ds, rest, rfl, hds, hr⟩ := Extent.exists_run isDigit t
  have hD : Digits (c :: ds) := ⟨by simp, by simpa [hc] using hds⟩
  by_cases hf : BeginsFraction rest
  · obtain ⟨d, r, rfl, hd⟩ := hf
    obtain ⟨fs, rest, rfl, hfs, hr'⟩ := Extent.exists_run isDigit r
    have hF : Digits (d :: fs) := ⟨by simp, by simpa [hd] using hfs⟩
    exact ⟨⟨.number, _⟩, rest, by simp, .fraction hD hF hr'⟩
  · exact ⟨⟨.number, _⟩, rest, rfl, .whole hD hr hf⟩

/-- **A segment begins with every character.** -/
theorem exists_fits (c : Char) (t : Text) :
    ∃ (g : Segment) (rest : Text), c :: t = g.text ++ rest ∧ g.Fits rest := by
  by_cases hb : Begins c
  · rcases hb with h | h | h | rfl | rfl | h | h
    · exact ⟨⟨.mark, [c]⟩, t, rfl, .mark h⟩
    · by_cases he : t.head? = some '='
      · obtain ⟨r, rfl⟩ := List.head?_eq_some_iff.1 he
        exact ⟨⟨.longOperator, _⟩, r, rfl, .longOperator h⟩
      · exact ⟨⟨.operator, [c]⟩, t, rfl, .operator h he⟩
    · exact ⟨⟨.blank, [c]⟩, t, rfl, .blank h⟩
    · exact exists_fits_slash t
    · rcases Extent.exists_stringBody t with ⟨b, rest, rfl, hb⟩ | ht
      · exact ⟨⟨.string, _⟩, rest, by simp, .string hb⟩
      · exact ⟨⟨.openString, _⟩, [], by simp, .openString ht⟩
    · exact exists_fits_digit h t
    · obtain ⟨b, rest, rfl, hb, hr⟩ := Extent.exists_run isWord t
      exact ⟨⟨.word, _⟩, rest, rfl, .word h hb hr⟩
  · exact ⟨⟨.stray, [c]⟩, t, rfl, .stray hb⟩

end Segment

theorem leadOf_eq_stray_iff {c : Char} : leadOf c = .stray ↔ ¬ Begins c := by
  refine ⟨fun h hb => ?_, leadOf_of_not_begins⟩
  rcases hb with hc | hc | hc | rfl | rfl | hc | hc
  · rw [leadOf, if_pos hc] at h
    cases h
  · rw [leadOf_of_mem_signs hc] at h
    cases h
  · rw [leadOf_of_mem_blanks hc] at h
    cases h
  · cases h
  · cases h
  · rw [leadOf_of_isDigit hc] at h
    cases h
  · rw [leadOf_of_isLetter hc] at h
    cases h

theorem Segment.form_first_eq_stray_iff {c : Char} {t : Text} :
    (first c t).form = .stray ↔ ¬ Begins c := by
  rw [← leadOf_eq_stray_iff, first]
  cases leadOf c with
  | stray => simp
  | sign | slash | quote =>
    dsimp only
    repeat' split
    all_goals simp
  | _ => simp

theorem begins_iff {c : Char} : Begins c ↔
    ∃ (g : Segment) (rest : Text), g.Fits rest ∧ g.form ≠ .stray ∧ g.text.head? = some c := by
  constructor
  · intro h
    obtain ⟨g, rest, e, hg⟩ := Segment.exists_fits c []
    obtain ⟨d, t, e', rfl⟩ := hg.eq_first
    obtain ⟨rfl, rfl⟩ : c = d ∧ [] = t := List.cons.inj (e.trans e')
    refine ⟨_, rest, hg, fun hs => Segment.form_first_eq_stray_iff.1 hs h, ?_⟩
    obtain ⟨d, t, ht⟩ := List.exists_cons_of_ne_nil hg.text_ne_nil
    rw [ht] at e ⊢
    rw [(List.cons.inj e).1]
    rfl
  · rintro ⟨g, rest, hg, hs, hc⟩
    obtain ⟨d, t, e, rfl⟩ := hg.eq_first
    obtain ⟨r, hr⟩ := List.head?_eq_some_iff.1 hc
    rw [hr] at e
    obtain rfl : c = d := (List.cons.inj e).1
    exact Classical.byContradiction fun hb => hs (Segment.form_first_eq_stray_iff.2 hb)

/-! ## Whole sources -/

namespace Segmentation

variable {s : Text} {gs : List Segment}

theorem unique {gs' : List Segment} (h : Segmentation s gs) (h' : Segmentation s gs') :
    gs = gs' := by
  induction h generalizing gs' with
  | nil =>
    generalize e : ([] : Text) = s at h'
    cases h' with
    | nil => rfl
    | cons hg _ => exact absurd (List.append_eq_nil_iff.1 e.symm).1 hg.text_ne_nil
  | @cons g rest gs hg _ ih =>
    generalize e : g.text ++ rest = s at h'
    cases h' with
    | nil => exact absurd (List.append_eq_nil_iff.1 e).1 hg.text_ne_nil
    | cons hg' h' =>
      obtain ⟨rfl, rfl⟩ := hg.unique hg' e
      rw [ih h']

theorem flatMap_text (h : Segmentation s gs) : gs.flatMap Segment.text = s := by
  induction h with
  | nil => rfl
  | cons _ _ ih => rw [List.flatMap_cons, ih]

end Segmentation

theorem exists_segmentation (s : Text) : ∃ gs, Segmentation s gs := by
  -- the rest after a segment is shorter, but no part of the data tells where it begins
  induction n : s.length using Nat.strongRecOn generalizing s with
  | _ n ih =>
    cases s with
    | nil => exact ⟨[], .nil⟩
    | cons c t =>
      obtain ⟨g, rest, e, hg⟩ := Segment.exists_fits c t
      have hl := List.length_pos_iff.2 hg.text_ne_nil
      have hs := congrArg List.length e
      rw [List.length_append] at hs
      obtain ⟨gs, h⟩ := ih rest.length (by omega) rest rfl
      exact ⟨g :: gs, e ▸ .cons hg h⟩

/-- **Every source has exactly one segmentation.** -/
theorem existsUnique_segmentation (s : Text) :
    ∃ gs, Segmentation s gs ∧ ∀ gs', Segmentation s gs' → gs' = gs := by
  obtain ⟨gs, h⟩ := exists_segmentation s
  exact ⟨gs, h, fun _ h' => h'.unique h⟩

end BudgetLexer
