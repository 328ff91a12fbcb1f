import BudgetLexer.Extent

/-!
# Extents and the text that follows

How far an extent reaches into a text that is given as a beginning and what follows it. What follows
decides where a lexeme ends, so it is a hypothesis of each statement.

* `Stops p t`: the text `t` does not begin with a character of the class `p`.
* `word_append`, `line_append`, `stringBody_append`, `number_append`, `number_append_point`: a
  beginning that the text after it stops is the whole extent.
* `blockComment_append`, `blockComment_eq_length`: the same for a comment, closed and unclosed.
* `exists_run`, `exists_stringBody`, `exists_blockComment`: every text splits in this way.
* `RunEnds`, `NumberEnds`: where a run of one class and a number end, said of positions; `runEnds_iff`
  and `numberEnds_iff` tell the extents by them.
-/

namespace BudgetLexer

/-- The text does not begin with a character of the class `p`. -/
def Stops (p : Char → Bool) (t : Text) : Prop := ∀ c ∈ t.head?, p c = false

/-- The text begins with a point and a digit. -/
def BeginsFraction (t : Text) : Prop := ∃ c r, t = '.' :: c :: r ∧ isDigit c = true

/-- **The run of the class `p` from position `i` on ends at `j`**: the characters in between are of the
class, and none is at `j`, or one that is not. -/
structure RunEnds (p : Char → Bool) (t : Text) (i j : Nat) : Prop where
  le : i ≤ j
  run : ∀ k, i ≤ k → k < j → ∃ c ∈ t[k]?, p c = true
  stop : ∀ c ∈ t[j]?, p c = false

/-- **The number from position `i` on ends at a position**: after its digits, of which there may be
none, or after those of its fraction. -/
inductive NumberEnds (t : Text) (i : Nat) : Nat → Prop
  | whole {j} (h : RunEnds isDigit t i j) (hf : ¬ BeginsFraction (t.drop j)) : NumberEnds t i j
  | fraction {j k} (h : RunEnds isDigit t i j) (hf : BeginsFraction (t.drop j))
    (h' : RunEnds isDigit t (j + 1) k) : NumberEnds t i k

variable {p : Char → Bool} {b t rest : Text} {i j k : Nat}

@[simp] theorem stops_nil : Stops p [] := by simp [Stops]

@[simp] theorem stops_cons {c : Char} : Stops p (c :: t) ↔ p c = false := by simp [Stops]

namespace Extent

/-! ## Runs of one class -/

theorem takeWhile_eq_nil (h : Stops p rest) : rest.takeWhile p = [] ∧ rest.dropWhile p = rest := by
  cases rest with
  | nil => exact ⟨rfl, rfl⟩
  | cons c r => simp [stops_cons.1 h]

theorem takeWhile_append (hb : ∀ c ∈ b, p c = true) (hr : Stops p rest) :
    (b ++ rest).takeWhile p = b := by
  rw [List.takeWhile_append_of_pos hb, (takeWhile_eq_nil hr).1, List.append_nil]

theorem dropWhile_append (hb : ∀ c ∈ b, p c = true) (hr : Stops p rest) :
    (b ++ rest).dropWhile p = rest := by
  rw [List.dropWhile_append_of_pos hb, (takeWhile_eq_nil hr).2]

theorem exists_run (p : Char → Bool) (t : Text) :
    ∃ b rest, t = b ++ rest ∧ (∀ c ∈ b, p c = true) ∧ Stops p rest := by
  induction t with
  | nil => exact ⟨[], [], rfl, by simp, stops_nil⟩
  | cons c t ih =>
    by_cases h : p c = true
    · obtain ⟨b, rest, rfl, hb, hr⟩ := ih
      exact ⟨c :: b, rest, rfl, by simpa [h] using hb, hr⟩
    · exact ⟨[], c :: t, rfl, by simp, by simpa using h⟩

theorem word_append (hb : ∀ c ∈ b, isWord c = true) (hr : Stops isWord rest) :
    word (b ++ rest) = b.length := by
  rw [word, takeWhile_append hb hr]

theorem digits_append (hb : ∀ c ∈ b, isDigit c = true) (hr : Stops isDigit rest) :
    digits (b ++ rest) = b.length := by
  rw [digits, takeWhile_append hb hr]

theorem line_append (hb : '\n' ∉ b) (hr : rest = [] ∨ rest.head? = some '\n') :
    line (b ++ rest) = b.length := by
  rw [line, takeWhile_append]
  · intro c hc
    simpa using fun e : c = '\n' => hb (e ▸ hc)
  · rcases hr with rfl | hr
    · exact stops_nil
    · simp [Stops, hr]

theorem stringBody_append (hb : '"' ∉ b) (hr : rest = [] ∨ rest.head? = some '"') :
    stringBody (b ++ rest) = b.length := by
  rw [stringBody, takeWhile_append]
  · intro c hc
    simpa using fun e : c = '"' => hb (e ▸ hc)
  · rcases hr with rfl | hr
    · exact stops_nil
    · simp [Stops, hr]

/-! ## Numbers -/

theorem number_append (hb : ∀ c ∈ b, isDigit c = true) (hr : Stops isDigit rest)
    (hf : ¬ BeginsFraction rest) : number (b ++ rest) = b.length := by
  have hd := digits_append hb hr
  unfold number
  rw [dropWhile_append hb hr]
  split
  · next r =>
    rw [hd, if_pos]
    cases r with
    | nil => rfl
    | cons c r =>
      have hc : isDigit c = false := Bool.eq_false_iff.2 fun h => hf ⟨c, r, rfl, h⟩
      simp [digits, hc]
  · exact hd

theorem number_append_point {fs : Text} (hb : ∀ c ∈ b, isDigit c = true) (hne : fs ≠ [])
    (hf : ∀ c ∈ fs, isDigit c = true) (hr : Stops isDigit rest) :
    number (b ++ '.' :: (fs ++ rest)) = b.length + 1 + fs.length := by
  have hp : Stops isDigit ('.' :: (fs ++ rest)) := stops_cons.2 (by decide)
  have hl : fs.length ≠ 0 := fun h => hne (List.length_eq_zero_iff.1 h)
  unfold number
  rw [dropWhile_append hb hp, digits_append hb hp]
  change (if digits (fs ++ rest) = 0 then _ else b.length + 1 + digits (fs ++ rest)) = _
  rw [digits_append hf hr, if_neg hl]

/-! ## Strings and block comments -/

theorem exists_stringBody (t : Text) : (∃ b rest, t = b ++ '"' :: rest ∧ '"' ∉ b) ∨ '"' ∉ t := by
  by_cases h : '"' ∈ t
  · obtain ⟨b, rest, e, hb⟩ := List.eq_append_cons_of_mem h
    exact Or.inl ⟨b, rest, e, hb⟩
  · exact Or.inr h

theorem infix_cons_iff {c : Char} :
    ['*', '/'] <:+: c :: b ↔ (c = '*' ∧ b.head? = some '/') ∨ ['*', '/'] <:+: b := by
  rw [List.infix_cons_iff]
  refine or_congr_left ⟨?_, ?_⟩
  · rintro ⟨r, e⟩
    obtain ⟨rfl, rfl⟩ : '*' = c ∧ '/' :: r = b := by simpa using e
    exact ⟨rfl, rfl⟩
  · rintro ⟨rfl, hd⟩
    obtain ⟨r, rfl⟩ := List.head?_eq_some_iff.1 hd
    exact ⟨r, rfl⟩

/-- A comment that is closed: the star and slash after it are the first ones. A star at the end of the
body does not close the comment with the star after it, as in two stars and a slash. -/
theorem blockComment_append (h : ¬ ['*', '/'] <:+: b) :
    blockComment (b ++ '*' :: '/' :: rest) = b.length + 2 := by
  induction b with
  | nil => rfl
  | cons c b ih =>
    obtain ⟨hc, hb⟩ := not_or.1 (mt infix_cons_iff.2 h)
    -- the first character of what follows the body is a star, so the two do not close early
    have hc' : ¬ (c = '*' ∧ (b ++ '*' :: '/' :: rest).head? = some '/') := by
      cases b with
      | nil => simp
      | cons d b => exact hc
    rw [List.cons_append, blockComment, if_neg hc', ih hb, List.length_cons]

theorem blockComment_eq_length (h : ¬ ['*', '/'] <:+: b) : blockComment b = b.length := by
  induction b with
  | nil => rfl
  | cons c b ih =>
    obtain ⟨hc, hb⟩ := not_or.1 (mt infix_cons_iff.2 h)
    rw [blockComment, if_neg hc, ih hb, List.length_cons]

theorem exists_blockComment (t : Text) :
    (∃ b rest, t = b ++ '*' :: '/' :: rest ∧ ¬ ['*', '/'] <:+: b) ∨ ¬ ['*', '/'] <:+: t := by
  induction t with
  | nil => exact Or.inr (by decide)
  | cons c t ih =>
    by_cases hc : c = '*' ∧ t.head? = some '/'
    · obtain ⟨rfl, hd⟩ := hc
      obtain ⟨r, rfl⟩ := List.head?_eq_some_iff.1 hd
      exact Or.inl ⟨[], r, rfl, by decide⟩
    · rcases ih with ⟨b, rest, rfl, hb⟩ | ht
      · refine Or.inl ⟨c :: b, rest, rfl, ?_⟩
        rw [infix_cons_iff, not_or]
        refine ⟨?_, hb⟩
        rintro ⟨rfl, hd⟩
        obtain ⟨r, rfl⟩ := List.head?_eq_some_iff.1 hd
        exact hc ⟨rfl, rfl⟩
      · exact Or.inr (by rw [infix_cons_iff, not_or]; exact ⟨hc, ht⟩)

end Extent

/-! ## Positions -/

theorem RunEnds.unique (h : RunEnds p t i j) (h' : RunEnds p t i k) : j = k := by
  rcases Nat.lt_trichotomy j k with hlt | heq | hlt
  · obtain ⟨c, hc, hp⟩ := h'.run j h.le hlt
    rw [h.stop c hc] at hp
    cases hp
  · exact heq
  · obtain ⟨c, hc, hp⟩ := h.run k h'.le hlt
    rw [h'.stop c hc] at hp
    cases hp

theorem runEnds_of_drop (e : t.drop i = b ++ rest) (hb : ∀ c ∈ b, p c = true)
    (hr : Stops p rest) : RunEnds p t i (i + b.length) := by
  refine ⟨Nat.le_add_right .., fun k hik hk => ?_, fun c hc => hr c ?_⟩
  · obtain ⟨n, rfl⟩ := Nat.exists_eq_add_of_le hik
    have hn : n < b.length := by omega
    refine ⟨b[n], ?_, hb _ (List.getElem_mem hn)⟩
    rw [← List.getElem?_drop, e, List.getElem?_append_left hn, List.getElem?_eq_getElem hn]
    rfl
  · rwa [← List.getElem?_drop, e, List.getElem?_append_right (Nat.le_refl _), Nat.sub_self,
      ← List.head?_eq_getElem?] at hc

theorem runEnds_iff : RunEnds p t i j ↔ j = i + ((t.drop i).takeWhile p).length := by
  obtain ⟨b, rest, e, hb, hr⟩ := Extent.exists_run p (t.drop i)
  have h := runEnds_of_drop e hb hr
  rw [e, Extent.takeWhile_append hb hr]
  exact ⟨fun h' => h'.unique h, fun hj => hj ▸ h⟩

theorem NumberEnds.unique (h : NumberEnds t i j) (h' : NumberEnds t i k) : j = k := by
  cases h with
  | whole h hf =>
    cases h' with
    | whole h' => exact h.unique h'
    | fraction h' hf' => exact absurd (h.unique h' ▸ hf') hf
  | fraction h hf hd =>
    cases h' with
    | whole h' hf' => exact absurd (h.unique h' ▸ hf) hf'
    | fraction h' _ hd' =>
      obtain rfl := h.unique h'
      exact hd.unique hd'

theorem numberEnds_number (t : Text) (i : Nat) :
    NumberEnds t i (i + Extent.number (t.drop i)) := by
  obtain ⟨b, rest, e, hb, hr⟩ := Extent.exists_run isDigit (t.drop i)
  have hrun := runEnds_of_drop e hb hr
  have hrest : t.drop (i + b.length) = rest := by
    rw [← List.drop_drop, e, List.drop_left]
  by_cases hf : BeginsFraction rest
  · obtain ⟨c, r, rfl, hc⟩ := id hf
    obtain ⟨fs, rest', rfl, hfs, hr'⟩ := Extent.exists_run isDigit r
    have hcfs : ∀ d ∈ c :: fs, isDigit d = true := by simpa [hc] using hfs
    have hn := Extent.number_append_point hb (List.cons_ne_nil c fs) hcfs hr'
    have hend : i + (b.length + 1 + (c :: fs).length) = i + b.length + 1 + (c :: fs).length := by
      omega
    have hdrop : t.drop (i + b.length + 1) = (c :: fs) ++ rest' := by
      rw [← List.drop_drop, hrest]
      rfl
    rw [e, show c :: (fs ++ rest') = (c :: fs) ++ rest' from rfl, hn, hend]
    exact .fraction hrun (hrest ▸ hf) (runEnds_of_drop hdrop hcfs hr')
  · rw [e, Extent.number_append hb hr hf]
    exact .whole hrun (hrest ▸ hf)

theorem numberEnds_iff : NumberEnds t i j ↔ j = i + Extent.number (t.drop i) :=
  ⟨fun h => h.unique (numberEnds_number t i), fun hj => hj ▸ numberEnds_number t i⟩

end BudgetLexer
