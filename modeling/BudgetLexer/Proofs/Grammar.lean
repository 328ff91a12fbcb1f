import BudgetLexer.Numeral
import BudgetLexer.Proofs.Extent
import BudgetLexer.Proofs.Spelling
import BudgetLexer.Token

/-!
# The lexical grammar

A source is cut into segments: tokens, comments, blanks, and what is in error. What a segment may be
depends on the text that follows it, so that no segment could go on.

* `Form`, `Segment`: the forms of segments, and a piece of the source with its form.
* `Segment.Fits g rest`: the segment `g` may stand where `rest` follows it.
* `Segmentation s gs`: the segments `gs`, one after the other, are the source `s`.
* `tokensOf`, `diagnosticsOf`: what the segments give, on which lines.
-/

namespace BudgetLexer

/-! ## Characters -/

/-- The characters that are a token on their own. -/
def punctuation : Text := ['(', ')', '{', '}', ',', '.', '-', '+', ';', '*']

/-- The characters that an equals sign may follow in one token. -/
def signs : Text := ['!', '=', '<', '>']

/-- The characters between tokens. -/
def blanks : Text := [' ', '\r', '\t', '\n']

/-- The character begins a token, a comment or a blank. -/
def Begins (c : Char) : Prop :=
  c ∈ punctuation ∨ c ∈ signs ∨ c ∈ blanks ∨ c = '/' ∨ c = '"' ∨ isDigit c = true ∨
    isLetter c = true

instance : DecidablePred Begins := fun c => by unfold Begins; infer_instance

theorem forall_mem_of_all {p : Char → Prop} [DecidablePred p] {t : Text}
    (h : t.all (fun c => decide (p c)) = true) : ∀ c ∈ t, p c :=
  fun c hc => of_decide_eq_true (List.all_eq_true.1 h c hc)

/-- One digit at least, and nothing else. -/
def Digits (t : Text) : Prop := t ≠ [] ∧ ∀ c ∈ t, isDigit c = true

/-! ## Segments -/

/-- **The form of a segment.** -/
inductive Form
  | mark | longOperator | operator | slash
  | lineComment | blockComment | blank
  | string | openString | number | word | stray
  deriving DecidableEq

/-- A piece of a source, with its form. -/
structure Segment where
  form : Form
  text : Text
  deriving DecidableEq

/-- **The segment may stand where `rest` follows it.** -/
inductive Segment.Fits : Segment → Text → Prop
  | mark {c rest} (h : c ∈ punctuation) : Fits ⟨.mark, [c]⟩ rest
  | longOperator {c rest} (h : c ∈ signs) : Fits ⟨.longOperator, [c, '=']⟩ rest
  | operator {c rest} (h : c ∈ signs) (hr : rest.head? ≠ some '=') : Fits ⟨.operator, [c]⟩ rest
  | slash {rest} (h : rest.head? ≠ some '/') (h' : rest.head? ≠ some '*') :
      Fits ⟨.slash, ['/']⟩ rest
  | lineComment {b rest} (h : '\n' ∉ b) (hr : rest = [] ∨ rest.head? = some '\n') :
      Fits ⟨.lineComment, '/' :: '/' :: b⟩ rest
  | blockComment {b rest} (h : ¬ ['*', '/'] <:+: b) :
      Fits ⟨.blockComment, '/' :: '*' :: (b ++ ['*', '/'])⟩ rest
  | openComment {b} (h : ¬ ['*', '/'] <:+: b) : Fits ⟨.blockComment, '/' :: '*' :: b⟩ []
  | blank {c rest} (h : c ∈ blanks) : Fits ⟨.blank, [c]⟩ rest
  | string {b rest} (h : '"' ∉ b) : Fits ⟨.string, '"' :: (b ++ ['"'])⟩ rest
  | openString {b} (h : '"' ∉ b) : Fits ⟨.openString, '"' :: b⟩ []
  | whole {ds rest} (h : Digits ds) (hr : Stops isDigit rest) (hf : ¬ BeginsFraction rest) :
      Fits ⟨.number, ds⟩ rest
  | fraction {ds fs rest} (h : Digits ds) (h' : Digits fs) (hr : Stops isDigit rest) :
      Fits ⟨.number, ds ++ '.' :: fs⟩ rest
  | word {c b rest} (h : isLetter c = true) (h' : ∀ d ∈ b, isWord d = true)
      (hr : Stops isWord rest) : Fits ⟨.word, c :: b⟩ rest
  | stray {c rest} (h : ¬ Begins c) : Fits ⟨.stray, [c]⟩ rest

/-- **The segments are the source**, each of them followed by the next ones. -/
inductive Segmentation : Text → List Segment → Prop
  | nil : Segmentation [] []
  | cons {g rest gs} (hg : g.Fits rest) (h : Segmentation rest gs) :
      Segmentation (g.text ++ rest) (g :: gs)

/-! ## What segments give -/

/-- Whether segments of the form are tokens. -/
def Form.isToken : Form → Bool
  | .mark | .longOperator | .operator | .slash | .string | .number | .word => true
  | .lineComment | .blockComment | .blank | .openString | .stray => false

/-- The token that a segment on a given line is. -/
def Segment.token? (line : Nat) (g : Segment) : Option (Token Nat) :=
  match g.form with
  | .mark | .longOperator | .operator | .slash =>
    (Kind.ofSpelling? g.text).map fun k => ⟨k, g.text, .none, line⟩
  | .word => some ⟨(Kind.ofSpelling? g.text).getD .identifier, g.text, .none, line⟩
  | .number => (Numeral.read? g.text).map fun x => ⟨.number, g.text, .float x, line⟩
  | .string => some ⟨.string, g.text, .text g.text.tail.dropLast, line⟩
  | .lineComment | .blockComment | .blank | .openString | .stray => none

/-- The complaint about a segment that begins on a given line. A string that is not closed is
complained about where it ends. -/
def Segment.diagnostic? (line : Nat) (g : Segment) : Option Diagnostic :=
  match g.form with
  | .stray => some (.onLine line "Unexpected character.".toList)
  | .openString => some (.onLine (line + Text.newlines g.text) "Unterminated string.".toList)
  | _ => none

/-- **The tokens of segments** that begin on a given line, and the token that ends a scan. -/
def tokensOf (line : Nat) : List Segment → List (Token Nat)
  | [] => [⟨.eof, [], .none, line⟩]
  | g :: gs => (g.token? line).toList ++ tokensOf (line + Text.newlines g.text) gs

/-- **The complaints about segments** that begin on a given line. -/
def diagnosticsOf (line : Nat) : List Segment → List Diagnostic
  | [] => []
  | g :: gs => (g.diagnostic? line).toList ++ diagnosticsOf (line + Text.newlines g.text) gs

end BudgetLexer
