import BudgetLexer.Proofs.Rendering
import BudgetLexer.Session

/-!
# What a run writes

A run writes a line for each token, with nothing escaped: the text of a string may hold newlines, and
what looks like other tokens. Still the output tells the tokens. The name of a kind ends at the first
space, and a lexeme at the next one or, if it is a string, at its second quote. A lexeme tells its
literal, and so where the line ends.

* `Token.unplaced`: a token without its line, which is not written.
* `append_cons_cancel`: a text up to a separator that it does not hold.
* `Spells.literal_unique`, `Spells.cancel`: what a kind and its lexeme tell.
* `WellFormed.cancel`: no output of well-formed tokens goes on as that of others.
* **`run_output_eq_iff`**: two runs write the same for the same tokens only.
-/

namespace BudgetLexer

/-- The token without its line. -/
def Token.unplaced {Line : Type} (t : Token Line) : Token Unit := t.mapLine fun _ => ()

variable {k : Kind} {b b' t t' u u' : Text} {v v' : Value} {n n' : Nat} {ts ts' : List (Token Nat)}

theorem takeWhile_ne_append_cons {a : Char} (h : a ∉ b) (u : Text) :
    (b ++ a :: u).takeWhile (· ≠ a) = b :=
  Extent.takeWhile_append (fun c hc => by simpa using fun e : c = a => h (e ▸ hc)) (by simp)

theorem append_cons_cancel {a : Char} (h : a ∉ b) (h' : a ∉ b')
    (e : b ++ a :: u = b' ++ a :: u') : b = b' ∧ u = u' := by
  obtain rfl : b = b' := by
    rw [← takeWhile_ne_append_cons h u, e, takeWhile_ne_append_cons h']
  exact ⟨rfl, (List.cons.inj (List.append_cancel_left e)).2⟩

/-! ## One line -/

theorem Kind.space_not_mem_name (k : Kind) : ' ' ∉ k.name.toList := fun hm =>
  absurd (isWord_of_mem_name hm) (by decide)

theorem Token.kind_eq_of_text {x y : Token Nat} (e : x.text ++ u = y.text ++ u') :
    x.kind = y.kind ∧ x.lexeme ++ ' ' :: (x.literal.toText ++ u) =
      y.lexeme ++ ' ' :: (y.literal.toText ++ u') := by
  simp only [text, List.append_assoc, List.cons_append] at e
  obtain ⟨hname, hrest⟩ :=
    append_cons_cancel x.kind.space_not_mem_name y.kind.space_not_mem_name e
  exact ⟨Kind.name_injective (String.toList_inj.1 hname), hrest⟩

namespace Spells

/-- **A kind and its lexeme tell the literal**, since they are one segment. -/
theorem literal_unique (h : Spells k t v) (h' : Spells k t v') : v = v' := by
  obtain ⟨g, hg, hgt, hu⟩ := h.exists_fits parted_nil
  obtain ⟨g', hg', hgt', hu'⟩ := h'.exists_fits parted_nil
  obtain ⟨rfl, -⟩ := hg.unique hg' (by rw [hgt, hgt'])
  exact congrArg Token.literal (Option.some.inj ((hu 1).symm.trans (hu' 1)))

theorem space_not_mem (h : Spells k t v) (hk : k ≠ .string) : ' ' ∉ t := by
  obtain ⟨⟨f, t⟩, hg, rfl, hu⟩ := h.exists_fits parted_nil
  refine hg.blank_not_mem ?_ (by decide)
  cases f with
  | string => exact absurd (congrArg Token.kind (Option.some.inj (hu 1))).symm hk
  | lineComment | blockComment | blank | openString => cases hu 1
  | _ => rfl

theorem eq_string (h : Spells .string t v) : ∃ b, '"' ∉ b ∧ t = '"' :: (b ++ ['"']) := by
  cases h with
  | spelling h => cases h
  | @string b h => exact ⟨b, h, rfl⟩

theorem lexeme_cancel (h : Spells k t v) (h' : Spells k t' v')
    (e : t ++ ' ' :: u = t' ++ ' ' :: u') : t = t' ∧ u = u' := by
  by_cases hk : k = .string
  · subst hk
    obtain ⟨b, hb, rfl⟩ := h.eq_string
    obtain ⟨b', hb', rfl⟩ := h'.eq_string
    simp only [List.cons_append, List.append_assoc, List.nil_append, List.cons.injEq, true_and] at e
    obtain ⟨rfl, hu⟩ := append_cons_cancel hb hb' e
    exact ⟨rfl, (List.cons.inj hu).2⟩
  · exact append_cons_cancel (h.space_not_mem hk) (h'.space_not_mem hk) e

/-- **A kind and what is written from the lexeme on** tell the lexeme, the literal and the rest. -/
theorem cancel (h : Spells k t v) (h' : Spells k t' v')
    (e : t ++ ' ' :: (v.toText ++ u) = t' ++ ' ' :: (v'.toText ++ u')) :
    t = t' ∧ v = v' ∧ u = u' := by
  obtain ⟨rfl, hu⟩ := h.lexeme_cancel h' e
  obtain rfl := h.literal_unique h'
  exact ⟨rfl, rfl, List.append_cancel_left hu⟩

end Spells

/-! ## All lines -/

theorem tokenLines_cons_append (x : Token Nat) (ts : List (Token Nat)) (u : Text) :
    tokenLines (x :: ts) ++ u = x.text ++ '\n' :: (tokenLines ts ++ u) := by
  rw [tokenLines_cons, List.append_assoc, List.cons_append]

theorem tokenLines_eq_unplaced (ts : List (Token Nat)) :
    tokenLines ts = (ts.map Token.unplaced).flatMap fun t => t.text ++ ['\n'] := by
  rw [List.flatMap_map]
  rfl

/-- **What is written for well-formed tokens tells them**, and where it ends, whatever comes after
it. -/
theorem WellFormed.cancel (h : WellFormed n ts) (h' : WellFormed n' ts')
    (e : tokenLines ts ++ u = tokenLines ts' ++ u') :
    ts.map Token.unplaced = ts'.map Token.unplaced ∧ u = u' := by
  induction h generalizing n' ts' with
  | eof =>
    cases h' with
    | eof => exact ⟨rfl, List.append_cancel_left e⟩
    | cons ht' =>
      rw [tokenLines_cons_append, tokenLines_cons_append] at e
      exact absurd (Token.kind_eq_of_text e).1.symm ht'.ne_eof
  | cons ht _ _ ih =>
    cases h' with
    | eof =>
      rw [tokenLines_cons_append, tokenLines_cons_append] at e
      exact absurd (Token.kind_eq_of_text e).1 ht.ne_eof
    | cons ht' _ hts' =>
      rw [tokenLines_cons_append, tokenLines_cons_append] at e
      obtain ⟨rfl, hrest⟩ := Token.kind_eq_of_text e
      obtain ⟨rfl, rfl, hlines⟩ := ht.cancel ht' hrest
      obtain ⟨hts, hu⟩ := ih hts' (List.cons.inj hlines).2
      exact ⟨congrArg (List.cons _) hts, hu⟩

/-- **The output of a run tells its tokens.** Two runs write the same to standard output exactly when
their tokens have the same kinds, lexemes and literals, one by one, on whatever lines. And the output of
one run is never the beginning of a different one. -/
theorem run_output_eq_iff (source source' : Text) (r r' : Reporter) :
    let output := (r.perform (.run source)).output
    let output' := (r'.perform (.run source')).output
    (output = output' ↔ (scan source r).tokens.map Token.unplaced =
      (scan source' r').tokens.map Token.unplaced) ∧
      (output <+: output' → output = output') := by
  intro output output'
  have hwell := (scan_render r).1 source
  have hwell' := (scan_render r').1 source'
  refine ⟨⟨fun e => ?_, fun e => ?_⟩, fun ⟨u, e⟩ => ?_⟩
  · exact (hwell.cancel hwell' (congrArg (· ++ []) e)).1
  · change tokenLines _ = tokenLines _
    rw [tokenLines_eq_unplaced, e, ← tokenLines_eq_unplaced]
  · have hnil : tokenLines _ ++ u = tokenLines _ ++ [] := e.trans (List.append_nil _).symm
    obtain ⟨-, rfl⟩ := hwell.cancel hwell' hnil
    rwa [List.append_nil] at e

end BudgetLexer
