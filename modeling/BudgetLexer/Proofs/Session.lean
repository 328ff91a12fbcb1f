import BudgetLexer.Proofs.Run
import BudgetLexer.Session
import Mathlib.Data.List.Induction

/-!
# Sessions

What a reporter holds and has printed is told by the steps of its session alone: each step records
what it does whatever the reporter held before, and prints it unless the reporter is quiet just then.

* `Step.recorded`, `Step.found`, `Step.shown`, `Step.refusal?`: what a step gives by itself.
* `sinceReset`, `audible`: the steps whose findings are still held, and the findings that are printed.
* `scan_eq_fresh`, `perform_eq`: a scan by any reporter, and one step.
* **`session_trace`**: all that a session leaves and writes.
-/

namespace BudgetLexer

/-! ## Steps by themselves -/

namespace Step

/-- The diagnostics that a step records. An error is recorded if its line is an integer. -/
def recorded : Step → List Diagnostic
  | .error (.value (.int n)) message => [⟨.int n, message⟩]
  | .error _ _ => []
  | .report d => [d]
  | .scan source | .run source => (BudgetLexer.scan source .silent).reporter.diagnostics
  | .reset | .quiet _ => []

/-- The tokens that a step answers. -/
def found : Step → List (Token Nat)
  | .scan source => (BudgetLexer.scan source .silent).tokens
  | _ => []

/-- The text that a step writes to standard output. -/
def shown : Step → Text
  | .run source => tokenLines (BudgetLexer.scan source .silent).tokens
  | _ => []

/-- The complaint of a step about a line that is no integer, or is a truth value. -/
def refusal? : Step → Option BadLine
  | .error (.value (.int _)) _ => none
  | .error line _ => some ⟨line⟩
  | _ => none

/-- Whether a step makes the reporter forget what it holds. -/
def isReset : Step → Bool
  | .reset => true
  | _ => false

/-- Whether the reporter is quiet after a step, from whether it was before. -/
def quietAfter (quiet : Bool) : Step → Bool
  | .quiet on => on
  | _ => quiet

end Step

/-- The steps after the last reset, or all. -/
def sinceReset (steps : List Step) : List Step := (steps.reverse.takeWhile (!·.isReset)).reverse

/-- **The diagnostics that are printed**: those recorded while the reporter is not quiet. -/
def audible (quiet : Bool) : List Step → List Diagnostic
  | [] => []
  | step :: steps => (if quiet then [] else step.recorded) ++ audible (step.quietAfter quiet) steps

namespace Reporter

/-! ## Sessions -/

/-- The results of steps, one after the other. -/
def trace (r : Reporter) : List Step → List StepResult
  | [] => []
  | step :: steps => r.perform step :: trace (r.perform step).reporter steps

/-- The reporter after steps. -/
def after (r : Reporter) (steps : List Step) : Reporter :=
  steps.foldl (fun r step => (r.perform step).reporter) r

/-- What was written to a destination since an earlier state. -/
def outputTo (before after : Reporter) : Destination → Text
  | .standardError => errorOutput before after
  | .stream => (streamOutput? before after).getD []

/-- The whole text that steps write to a destination. -/
def writtenTo (d : Destination) (r : Reporter) : List Step → Text
  | [] => []
  | step :: steps =>
    outputTo r (r.perform step).reporter d ++ writtenTo d (r.perform step).reporter steps

variable {r : Reporter} {step : Step} {steps : List Step} {ds : List Diagnostic}

/-! ## One step -/

theorem report_eq (r : Reporter) (d : Diagnostic) :
    r.report d = { r with
      diagnostics := r.diagnostics ++ [d]
      printed := r.printed ++ if r.quiet then [] else [d] } := by
  obtain ⟨destination, quiet, held, printed⟩ := r
  cases quiet <;> simp [report]

theorem reportAll_eq (r : Reporter) (ds : List Diagnostic) :
    r.reportAll ds = { r with
      diagnostics := r.diagnostics ++ ds
      printed := r.printed ++ if r.quiet then [] else ds } := by
  induction ds generalizing r with
  | nil => simp [reportAll]
  | cons d ds ih =>
    change (r.report d).reportAll ds = _
    rw [ih, report_eq]
    obtain ⟨destination, quiet, held, printed⟩ := r
    cases quiet <;> simp

/-- **A scan finds the same by any reporter**, and the reporter records what a fresh one would. -/
theorem scan_eq_fresh (source : Text) (r : Reporter) :
    (scan source r).tokens = (scan source .silent).tokens ∧
      (scan source r).reporter = r.reportAll (scan source .silent).reporter.diagnostics := by
  obtain ⟨gs, h, -⟩ := existsUnique_segmentation source
  obtain ⟨-, htok, hrep⟩ := scan_of_segmentation h r
  obtain ⟨-, htok', -⟩ := scan_of_segmentation h .silent
  rw [htok, htok', hrep, diagnostics_scan_of_segmentation h]
  exact ⟨rfl, rfl⟩

theorem perform_eq (r : Reporter) (step : Step) : r.perform step =
    { reporter := { r with
        quiet := step.quietAfter r.quiet
        diagnostics := if step.isReset then [] else r.diagnostics ++ step.recorded
        printed := r.printed ++ if r.quiet then [] else step.recorded }
      tokens := step.found
      output := step.shown
      complaint := step.refusal? } := by
  have hkeep : r.printed ++ (if r.quiet then [] else []) = r.printed := by
    rw [ite_self, List.append_nil]
  cases step with
  | error line message =>
    -- only an integer is taken for a line
    cases line with
    | list => exact congrArg (StepResult.mk · [] [] _) (reportAll_eq r [])
    | value v =>
      cases v with
      | int n => exact congrArg (StepResult.mk · [] [] none) (reportAll_eq r [_])
      | _ => exact congrArg (StepResult.mk · [] [] _) (reportAll_eq r [])
  | report d => exact congrArg (StepResult.mk · [] [] none) (reportAll_eq r [d])
  | reset => exact congrArg (fun p => StepResult.mk ⟨_, _, [], p⟩ [] [] none) hkeep.symm
  | quiet on =>
    exact congrArg₂ (fun ds p => StepResult.mk ⟨_, on, ds, p⟩ [] [] none)
      (List.append_nil _).symm hkeep.symm
  | scan source =>
    obtain ⟨htok, hrep⟩ := scan_eq_fresh source r
    rw [perform, htok, hrep, reportAll_eq]
    rfl
  | run source =>
    obtain ⟨htok, hrep⟩ := scan_eq_fresh source r
    rw [perform, htok, hrep, reportAll_eq]
    rfl

/-! ## Sessions step by step -/

theorem sinceReset_concat (steps : List Step) (step : Step) :
    sinceReset (steps ++ [step]) = if step.isReset then [] else sinceReset steps ++ [step] := by
  unfold sinceReset
  rw [List.reverse_append, List.reverse_singleton, List.singleton_append, List.takeWhile_cons]
  cases step.isReset <;> simp

theorem diagnostics_after (h : r.diagnostics = []) (steps : List Step) :
    (r.after steps).diagnostics = (sinceReset steps).flatMap Step.recorded := by
  induction steps using List.reverseRecOn with
  | nil => exact h
  | append_singleton steps step ih =>
    rw [after, List.foldl_append, List.foldl_cons, List.foldl_nil, sinceReset_concat, perform_eq]
    change (if step.isReset then [] else (r.after steps).diagnostics ++ step.recorded) = _
    rw [ih]
    split <;> simp

theorem outputTo_perform (r : Reporter) (step : Step) (d : Destination) :
    outputTo r (r.perform step).reporter d =
      if d = r.destination then diagnosticLines (if r.quiet then [] else step.recorded) else [] := by
  have hsince : printedSince r (r.perform step).reporter =
      diagnosticLines (if r.quiet then [] else step.recorded) := by
    rw [printedSince, perform_eq]
    exact congrArg diagnosticLines List.drop_left
  have hdest : (r.perform step).reporter.destination = r.destination := by rw [perform_eq]
  cases d <;> cases hr : r.destination <;>
    simp [outputTo, errorOutput, streamOutput?, hdest, hr, hsince]

/-- **What is printed goes where the reporter prints**, and nowhere else. -/
theorem writtenTo_eq (r : Reporter) (steps : List Step) (d : Destination) :
    writtenTo d r steps =
      if d = r.destination then diagnosticLines (audible r.quiet steps) else [] := by
  induction steps generalizing r with
  | nil => simp [writtenTo, audible, diagnosticLines]
  | cons step steps ih =>
    rw [writtenTo, outputTo_perform, ih, perform_eq, audible]
    dsimp only
    split <;> simp [diagnosticLines]

theorem map_trace {α : Type} (f : StepResult → α) (g : Step → α)
    (h : ∀ r step, f (perform r step) = g step) (r : Reporter) (steps : List Step) :
    (r.trace steps).map f = steps.map g := by
  induction steps generalizing r with
  | nil => rfl
  | cons step steps ih => rw [trace, List.map_cons, h, ih, List.map_cons]

end Reporter

open Reporter in
/-- **The trace of a session.** A reporter, quiet or not, prints to standard error or to a stream. After
any steps it holds what those since the last reset recorded; it has printed, there and nowhere else,
what was recorded while it was not quiet, reset or not; and each step answered, showed and refused what
it would by itself. -/
theorem session_trace (destination : Destination) (quiet : Bool) (steps : List Step) :
    let r : Reporter := { destination, quiet }
    (r.after steps).diagnostics = (sinceReset steps).flatMap Step.recorded ∧
      ((r.after steps).hadError = true ↔ (sinceReset steps).flatMap Step.recorded ≠ []) ∧
      (∀ d, r.writtenTo d steps =
        if d = destination then diagnosticLines (audible quiet steps) else []) ∧
      (r.trace steps).map StepResult.tokens = steps.map Step.found ∧
      (r.trace steps).map StepResult.output = steps.map Step.shown ∧
      (r.trace steps).map StepResult.complaint = steps.map Step.refusal? := by
  intro r
  have hheld : (r.after steps).diagnostics = _ := diagnostics_after rfl steps
  refine ⟨hheld, ?_, writtenTo_eq r steps, ?_, ?_, ?_⟩
  · rw [← hheld, ← not_iff_not, Bool.not_eq_true, hadError_eq_false_iff, not_not]
  · exact map_trace _ _ (fun r step => by rw [perform_eq]) r steps
  · exact map_trace _ _ (fun r step => by rw [perform_eq]) r steps
  · exact map_trace _ _ (fun r step => by rw [perform_eq]) r steps

end BudgetLexer
