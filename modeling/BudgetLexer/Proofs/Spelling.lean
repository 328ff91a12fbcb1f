import BudgetLexer.Vocabulary

/-!
# Spellings

A mark, an operator or a reserved word is always written the same way; a name, a number, a string and
the end are not. The tables of the vocabulary say the same as the spellings.

* `Kind.spelling?`, `Kind.ofSpelling?`: the spelling of a kind, and the kind of a spelling;
  `ofSpelling?_eq_some_iff` says that no two kinds share one.
* `spelling?_of_mark?`, `spelling?_of_operator?`, `keyword?_eq_some_iff`: what the tables list.
-/

namespace BudgetLexer

namespace Kind

/-- The only way in which a kind is written, if there is only one. -/
def spelling? : Kind → Option Text
  | leftParen => some "(".toList
  | rightParen => some ")".toList
  | leftBrace => some "\x7b".toList
  | rightBrace => some "\x7d".toList
  | comma => some ",".toList
  | dot => some ".".toList
  | minus => some "-".toList
  | plus => some "+".toList
  | semicolon => some ";".toList
  | slash => some "/".toList
  | star => some "*".toList
  | bang => some "!".toList
  | bangEqual => some "!=".toList
  | equal => some "=".toList
  | equalEqual => some "==".toList
  | greater => some ">".toList
  | greaterEqual => some ">=".toList
  | less => some "<".toList
  | lessEqual => some "<=".toList
  | wordAnd => some "and".toList
  | wordClass => some "class".toList
  | wordElse => some "else".toList
  | wordFalse => some "false".toList
  | wordFun => some "fun".toList
  | wordFor => some "for".toList
  | wordIf => some "if".toList
  | wordNil => some "nil".toList
  | wordOr => some "or".toList
  | wordPrint => some "print".toList
  | wordReturn => some "return".toList
  | wordSuper => some "super".toList
  | wordThis => some "this".toList
  | wordVar => some "var".toList
  | wordWhile => some "while".toList
  | identifier | string | number | eof => none

/-- The kind that is written in a given way. -/
def ofSpelling? (t : Text) : Option Kind := all.find? fun k => k.spelling? == some t

theorem find?_spelling {k : Kind} (h : k.spelling?.isSome) :
    (all.find? fun l => l.spelling? == k.spelling?) = some k := by
  cases k with
  | identifier | string | number | eof => simp [spelling?] at h
  | _ => decide

theorem ofSpelling?_eq_some_iff {t : Text} {k : Kind} :
    ofSpelling? t = some k ↔ k.spelling? = some t := by
  constructor
  · intro h
    simpa using List.find?_some h
  · intro h
    have hk := find?_spelling (k := k) (by simp [h])
    rwa [h] at hk

theorem keyword?_of_spelling? {k : Kind} {c : Char} {t : Text} (h : k.spelling? = some (c :: t))
    (hc : isLetter c = true) : keyword? (c :: t) = some k := by
  have key : ∀ k : Kind, k.spelling?.all fun s =>
      !(s.head?.any isLetter) || keyword? s == some k := by
    intro k
    cases k <;> decide
  have := key k
  rw [h] at this
  simpa [hc] using this

theorem isWord_of_mem_name {k : Kind} {c : Char} (h : c ∈ k.name.toList) : isWord c = true := by
  have key : ∀ k : Kind, k.name.toList.all isWord = true := by
    intro k
    cases k <;> decide
  exact List.all_eq_true.1 (key k) c h

end Kind

/-! ## The tables -/

theorem mem_of_lookup {α β : Type} [BEq α] [LawfulBEq α] {l : List (α × β)} {a : α} {b : β}
    (h : l.lookup a = some b) : (a, b) ∈ l := by
  obtain ⟨l₁, l₂, rfl, -⟩ := List.lookup_eq_some_iff.1 h
  simp

theorem spelling?_of_mark? {c : Char} {k : Kind} (h : mark? c = some k) :
    k.spelling? = some [c] := by
  have key : ∀ e ∈ marks, e.2.spelling? = some [e.1] := by decide
  exact key _ (mem_of_lookup h)

theorem spelling?_of_operator? {c : Char} {k l : Kind} (h : operator? c = some (k, l)) :
    k.spelling? = some [c] ∧ l.spelling? = some [c, '='] := by
  have key : ∀ e ∈ operators, e.2.1.spelling? = some [e.1] ∧ e.2.2.spelling? = some [e.1, '='] := by
    decide
  exact key _ (mem_of_lookup h)

/-- **The reserved words are the spellings that begin with a letter.** -/
theorem keyword?_eq_some_iff {c : Char} {t : Text} {k : Kind} (hc : isLetter c = true) :
    keyword? (c :: t) = some k ↔ k.spelling? = some (c :: t) := by
  have key : ∀ e ∈ keywords, e.2.spelling? = some e.1 := by decide
  exact ⟨fun h => key _ (mem_of_lookup h), fun h => Kind.keyword?_of_spelling? h hc⟩

theorem keyword?_eq_ofSpelling? {c : Char} {t : Text} (hc : isLetter c = true) :
    keyword? (c :: t) = Kind.ofSpelling? (c :: t) := by
  refine Option.ext fun k => ?_
  rw [keyword?_eq_some_iff hc, Kind.ofSpelling?_eq_some_iff]

end BudgetLexer
