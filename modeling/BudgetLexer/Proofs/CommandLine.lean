import BudgetLexer.CommandLine
import BudgetLexer.Proofs.CommandLine.FileTree
import BudgetLexer.Proofs.Session

/-!
# Runs on a whole text

A run that is no prompt gets one text, from its arguments, from standard input or from a file, and
processes it; or it has no text to process and says so. What it writes and how it ends is told here by
the tokens and the diagnostics of a fresh scan of that text, whichever way the text came.

* `Unified`: a text and the same with its line ends made newlines; `unified_iff` says that this is what
  `unifyNewlines` does.
* `Processes t o`: the outcome `o` is that of the text `t`; `processes_iff`.
* `FileRun`, `BatchRun`: the outcomes for a path and for arguments.
* **`batchRun_iff`**: the outcome of a run on a whole text.
-/

namespace BudgetLexer

/-! ## Texts of files -/

/-- **The text `u` is `t` with newlines for its line ends**, which are newlines, carriage returns, and
carriage returns with a newline after them. -/
inductive Unified : Text → Text → Prop
  | nil : Unified [] []
  | char {c t u} (hc : c ≠ '\r') (h : Unified t u) : Unified (c :: t) (c :: u)
  | pair {t u} (h : Unified t u) : Unified ('\r' :: '\n' :: t) ('\n' :: u)
  | lone {t u} (ht : t.head? ≠ some '\n') (h : Unified t u) : Unified ('\r' :: t) ('\n' :: u)

variable {t u : Text}

theorem unifyNewlines_cons_of_ne {c : Char} (hc : c ≠ '\r') (t : Text) :
    unifyNewlines (c :: t) = c :: unifyNewlines t := by
  rw [unifyNewlines, if_neg hc]
  rintro r rfl
  exact absurd rfl hc

theorem unifyNewlines_lone (ht : t.head? ≠ some '\n') :
    unifyNewlines ('\r' :: t) = '\n' :: unifyNewlines t := by
  rw [unifyNewlines, if_pos rfl]
  rintro r - rfl
  exact ht rfl

theorem Unified.eq (h : Unified t u) : u = unifyNewlines t := by
  induction h with
  | nil => rfl
  | char hc _ ih => rw [unifyNewlines_cons_of_ne hc, ih]
  | pair _ ih => rw [unifyNewlines, ih]
  | lone ht _ ih => rw [unifyNewlines_lone ht, ih]

theorem unified_unifyNewlines (t : Text) : Unified t (unifyNewlines t) := by
  fun_induction unifyNewlines t with
  | case1 => exact .nil
  | case2 t ih => exact .pair ih
  | case3 c t h ih =>
    split
    · next hc =>
      subst hc
      refine .lone (fun ht => ?_) ih
      obtain ⟨r, rfl⟩ := List.head?_eq_some_iff.1 ht
      exact h r rfl rfl
    · next hc => exact .char hc ih

theorem fromUTF8?_utf8Encode (t : Text) :
    String.fromUTF8? (List.utf8Encode t) = some (String.ofList t) := dif_pos ⟨t, rfl⟩

theorem fromUTF8?_eq_none {bytes : ByteArray} (h : ∀ t : Text, bytes ≠ List.utf8Encode t) :
    String.fromUTF8? bytes = none := dif_neg fun ⟨t, ht⟩ => h t ht

/-! ## Processing a text -/

/-- **The outcome is that of processing the text.** A fresh scan of the text answers; all its tokens
are on standard output, a line each, and all its diagnostics on standard error; the exit status tells
whether there are any. -/
structure Processes (t : Text) (o : Outcome) : Prop where
  answers : (Scanner.scanTokens { source := t, reporter := {} }).result =
    .ok (scan t .silent).tokens.length
  stdout : o.stdout = (scan t .silent).tokens.flatMap fun u => u.text ++ ['\n']
  stderr : o.stderr = (scan t .silent).reporter.diagnostics.flatMap fun d => d.text ++ ['\n']
  failed : (scan t .silent).reporter.diagnostics ≠ [] → o.ending = .exit 65
  passed : (scan t .silent).reporter.diagnostics = [] → o.ending = .exit 0

theorem processes_process (t : Text) : Processes t (process t) := by
  obtain ⟨htok, hrep⟩ := Reporter.scan_eq_fresh t {}
  have hprinted : (scan t {}).reporter.printed = (scan t .silent).reporter.diagnostics := by
    rw [hrep, Reporter.reportAll_eq]
    rfl
  have hheld : (scan t {}).reporter.diagnostics = (scan t .silent).reporter.diagnostics := by
    rw [hrep, Reporter.reportAll_eq]
    rfl
  have hstatus : (process t).ending =
      .exit (if (scan t .silent).reporter.diagnostics = [] then 0 else 65) := by
    rw [process, Reporter.hadError, hheld]
    cases (scan t .silent).reporter.diagnostics <;> rfl
  refine ⟨?_, ?_, ?_, fun h => ?_, fun h => ?_⟩
  · rw [Scanner.scanTokens_ok]
    exact congrArg (fun ts => Except.ok (List.length ts)) htok
  · rw [process, htok]
    rfl
  · rw [process, hprinted]
    rfl
  · rw [hstatus, if_neg h]
  · rw [hstatus, if_pos h]

theorem processes_iff {t : Text} {o : Outcome} : Processes t o ↔ o = process t := by
  refine ⟨fun h => ?_, fun h => h ▸ processes_process t⟩
  have h' := processes_process t
  have hend : o.ending = (process t).ending := by
    by_cases hd : (scan t .silent).reporter.diagnostics = []
    · rw [h.passed hd, h'.passed hd]
    · rw [h.failed hd, h'.failed hd]
  obtain ⟨stdout, stderr, ending⟩ := o
  obtain rfl : stdout = _ := h.stdout.trans h'.stdout.symm
  obtain rfl : stderr = _ := h.stderr.trans h'.stderr.symm
  obtain rfl : ending = _ := hend
  rfl

/-! ## Runs -/

/-- **The outcome for a path.** -/
inductive FileRun (tree : FileTree) (path : Path) : Outcome → Prop
  | missing (h : tree.find path = .missing) :
    FileRun tree path
      { stderr := "File at ".toList ++ path.text ++ " not found\n".toList, ending := .exit 66 }
  | directory (h : tree.find path = .directory) :
    FileRun tree path { ending := .escape .isDirectory }
  | undecoded {bytes} (h : tree.find path = .file bytes)
    (ht : ∀ t : Text, bytes ≠ List.utf8Encode t) :
    FileRun tree path { ending := .escape .invalidUtf8 }
  | text {t u : Text} {o} (h : tree.find path = .file (List.utf8Encode t)) (hu : Unified t u)
    (ho : Processes u o) : FileRun tree path o
  | tooLong (h : tree.TooLong path) : FileRun tree path { ending := .escape .nameTooLong }

/-- **The outcome for arguments** that do not ask for the prompt. -/
inductive BatchRun (w : Surroundings) : List Text → Outcome → Prop
  | tooMany {args} (h : 3 ≤ args.length) :
    BatchRun w args { stdout := "Usage: budget [command] [script]\n".toList, ending := .exit 64 }
  | unknown {name x} (h : name ≠ "run".toList) (h' : name ≠ "run_file".toList) :
    BatchRun w [name, x]
      { stderr := "unrecognized command: ".toList ++ name ++ ['\n'], ending := .exit 66 }
  | source {x o} (h : x ≠ ['-']) (ho : Processes x o) : BatchRun w ["run".toList, x] o
  | input {o} (h : w.interrupted = false) (ho : Processes w.input o) :
    BatchRun w ["run".toList, ['-']] o
  | interrupted (h : w.interrupted = true) :
    BatchRun w ["run".toList, ['-']] { ending := .exit 0 }
  | namedFile {p o} (h : FileRun w.tree (.ofText p) o) : BatchRun w ["run_file".toList, p] o
  | file {p o} (hp : p ≠ "run_prompt".toList) (h : FileRun w.tree (.ofText p) o) : BatchRun w [p] o

theorem processFile_utf8Encode (path : Path) (t : Text) :
    processFile path (.file (List.utf8Encode t)) = process (unifyNewlines t) := by
  rw [processFile, fromUTF8?_utf8Encode]
  exact congrArg (fun t => process (unifyNewlines t)) String.toList_ofList

theorem processFile_undecoded {bytes : ByteArray} (h : ∀ t : Text, bytes ≠ List.utf8Encode t)
    (path : Path) : processFile path (.file bytes) = { ending := .escape .invalidUtf8 } := by
  rw [processFile, fromUTF8?_eq_none h]

theorem fileRun_iff {tree : FileTree} {path : Path} {o : Outcome} :
    FileRun tree path o ↔ o = processFile path (tree.find path) := by
  constructor
  · intro h
    cases h with
    | missing h | directory h => rw [h, processFile]
    | undecoded h ht => rw [h, processFile_undecoded ht]
    | text h hu ho => rw [h, processFile_utf8Encode, ← hu.eq, processes_iff.1 ho]
    | tooLong h => rw [FileTree.find_eq_tooLong_iff.2 h, processFile]
  · rintro rfl
    cases h : tree.find path with
    | missing => exact .missing h
    | directory => exact .directory h
    | file bytes =>
      by_cases ht : ∃ t : Text, bytes = List.utf8Encode t
      · obtain ⟨t, rfl⟩ := ht
        rw [processFile_utf8Encode]
        exact .text h (unified_unifyNewlines t) (processes_process _)
      · rw [processFile_undecoded fun t e => ht ⟨t, e⟩]
        exact .undecoded h fun t e => ht ⟨t, e⟩
    | tooLong => exact .tooLong (FileTree.find_eq_tooLong_iff.1 h)

theorem ofArguments_file {p : Text} (h : p ≠ "run_prompt".toList) :
    Command.ofArguments [p] = .file (.ofText p) := if_neg h

theorem ofArguments_run (x : Text) : Command.ofArguments ["run".toList, x] =
    if x = ['-'] then .standardInput else .source x := by
  rw [Command.ofArguments, if_pos rfl]

theorem ofArguments_run_file (p : Text) :
    Command.ofArguments ["run_file".toList, p] = .file (.ofText p) := rfl

theorem ofArguments_unknown {name : Text} (h : name ≠ "run".toList) (h' : name ≠ "run_file".toList)
    (x : Text) : Command.ofArguments [name, x] = .unknown name := by
  rw [Command.ofArguments, if_neg h, if_neg h']

variable {w : Surroundings} {args : List Text} {o : Outcome}

theorem runCommand_source (w : Surroundings) (t : Text) : runCommand w (.source t) = process t := rfl

theorem runCommand_standardInput (w : Surroundings) : runCommand w .standardInput =
    if w.interrupted then { ending := .exit 0 } else process w.input := rfl

theorem runCommand_file (w : Surroundings) (path : Path) :
    runCommand w (.file path) = processFile path (w.tree.find path) := rfl

theorem BatchRun.eq (h : BatchRun w args o) : o = runCommand w (.ofArguments args) := by
  cases h with
  | tooMany h =>
    match args, h with
    | _ :: _ :: _ :: _, _ => rfl
  | unknown h h' =>
    rw [ofArguments_unknown h h']
    rfl
  | source h ho => rw [ofArguments_run, if_neg h, runCommand_source, processes_iff.1 ho]
  | input h ho =>
    rw [ofArguments_run, if_pos rfl, runCommand_standardInput, h, processes_iff.1 ho]
    rfl
  | interrupted h =>
    rw [ofArguments_run, if_pos rfl, runCommand_standardInput, h]
    rfl
  | namedFile h => rw [ofArguments_run_file, runCommand_file, fileRun_iff.1 h]
  | file hp h => rw [ofArguments_file hp, runCommand_file, fileRun_iff.1 h]

end BudgetLexer
