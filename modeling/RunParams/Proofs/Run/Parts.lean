import RunParams.Run.Perform

/-!
# The parts of a run

A run opens a context and finishes with it. Opening is creating the context and looking what came of
it; finishing is to take the steps, to discard the context and to say how it went. To execute a step
is to note it, to let the executor work and to look what it returns.
-/

namespace RunParams.RunInput

/-- What a run does when the creation of its context has ended. -/
def opened (input : RunInput) : Except BindingError Nat → Program World Failure Nat
  | .ok number => return number
  | .error e => do
    if e.isDefinitionError then World.report (.definitionRejected input.run e)
    .fail ((Failure.ofBinding e).whileDoing ("Failed to initialize run " ++ input.run))

/-- A run creates a context and looks what came of it. -/
theorem openContext_eq (input : RunInput) (declarations : Declarations) :
    input.openContext declarations =
      ((Registry.create input.run input.organization declarations).attempt >>= input.opened) := rfl

/-- When the creation of its context has failed, a run fails accordingly, and at most reports it. -/
theorem opened_error (input : RunInput) (e : BindingError) (w : World) :
    ∃ events, input.opened (.error e) w = .ended (w.logged events)
      (.error ((Failure.ofBinding e).whileDoing ("Failed to initialize run " ++ input.run))) := by
  unfold opened
  cases hdefinition : e.isDefinitionError with
  | true =>
    refine ⟨[.definitionRejected input.run e], ?_⟩
    simp only [hdefinition, if_true]
    rfl
  | false =>
    have hnothing : w.logged [] = w := by
      unfold World.logged Surroundings.logged
      rw [List.append_nil]
    refine ⟨[], ?_⟩
    simp only [hdefinition, hnothing]
    rfl

/-- What a run does once its context has been created. -/
def finish (executor : Executor) (input : RunInput) (flag number : Nat) :
    Program World Failure Summary := do
  let result ← (takeSteps executor input flag number 0 ∅ input.workflow.steps).attempt
  let _ ← Registry.discard input.run
  match result with
  | .ok summary =>
    World.report (.runFinished input.run summary.status.shown summary.stepsCompleted)
    return summary
  | .error (mishap : Mishap) =>
    let failure := mishap.toFailure input.run
    World.report (.runFailed input.run failure.headline)
    .fail failure

/-- A run creates its context and goes on with it. -/
theorem perform_eq (executor : Executor) (input : RunInput) (flag : Nat) :
    input.perform executor flag =
      (Program.ofExcept ((input.workflow.declarations input.inputs).mapError Failure.ofReport) >>=
        fun declarations =>
          World.report
              (.runStarting input.run input.organization.id input.workflow.steps.length) >>=
            fun _ => input.openContext declarations >>= input.finish executor flag) := rfl

/-- What comes of a step when its executor has returned. -/
def returned (step : Step) : Except Mishap Json → Program World Mishap Json
  | .ok output => return output
  | .error mishap => .fail (mishap.whileDoing ("Step " ++ step.label ++ " failed"))

/-- The execution of a step is noted with the context that the executor sees. -/
theorem execute_apply (executor : Executor) (input : RunInput) (flag number : Nat) (step : Step)
    (w : World) : execute executor input flag number step w =
      ((((executor step (w.contexts.getD number default)).within (Stage.ofWorld flag)
        (Stage.toWorld flag)).attempt : Program World Mishap (Except Mishap Json)) >>=
          returned step)
        { w with calls := w.calls ++ [⟨input.run, step.label, w.contexts.getD number default⟩] } :=
  rfl

end RunParams.RunInput
