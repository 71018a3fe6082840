import RunParams.Registry
import RunParams.Run.Executor

/-!
# Performing a run

A run binds its declarations, then takes its steps one after the other: it registers the parameters
of a step, has it executed and records its output. Before each step it looks whether it was asked to
stop. However it ends, its context is discarded, but only if it could create one.
-/

namespace RunParams

/-- What a run is started with. -/
structure RunInput where
  run : String
  organization : Organization
  workflow : Workflow
  inputs : KeyMap Json
  deriving Inhabited

/-- How a run that did not fail has ended. -/
inductive RunStatus where
  | completed
  | cancelled
  deriving DecidableEq, Repr, Inhabited

namespace RunStatus

/-- The name of a status. -/
def name : RunStatus → String
  | completed => "completed"
  | cancelled => "cancelled"

/-- What a log shows of a status. -/
def shown : RunStatus → String
  | completed => "Completed"
  | cancelled => "Cancelled"

end RunStatus

/-- The result of a run that did not fail. -/
structure Summary where
  run : String
  status : RunStatus
  stepsCompleted : Nat
  /-- The outputs of the steps by the keys of their parameters. -/
  outputs : KeyMap Json
  deriving Inhabited

namespace Summary

/-- The fields of a summary in their order. -/
def members (s : Summary) : List (String × Json) :=
  [("run_id", .text s.run), ("status", .text s.status.name),
    ("steps_completed", .nat s.stepsCompleted), ("outputs", .ofMap s.outputs)]

/-- Writes a summary. -/
def encode (s : Summary) : Json := .ofMembers s.members

end Summary

namespace RunInput

open World (report)

/-- Does some work on a context on the way of a run. -/
def onContext (number : Nat) (doing : String) (action : Action Context Unit) :
    Program World Mishap Unit := do
  match ← (World.act number action).attempt with
  | .ok () => return
  | .error e => .fail (.failed ((Failure.ofBinding e).whileDoing doing))

/-- Has a step executed. -/
def execute (executor : Executor) (input : RunInput) (flag number : Nat) (step : Step) :
    Program World Mishap Json := do
  let context := (← .get).contexts.getD number default
  .modify fun w => { w with calls := w.calls ++ [⟨input.run, step.label, context⟩] }
  let work := (executor step context).within (Stage.ofWorld flag) (Stage.toWorld flag)
  match ← work.attempt with
  | .ok output => return output
  | .error (mishap : Mishap) => .fail (mishap.whileDoing ("Step " ++ step.label ++ " failed"))

/-- Takes a step: registers its parameters, has it executed and records its output. -/
def takeStep (executor : Executor) (input : RunInput) (flag number : Nat) (step : Step) :
    Program World Mishap Json := do
  onContext number ("Failed to register parameters for step " ++ step.label)
    (Context.register step.parameters input.organization.id)
  let output ← execute executor input flag number step
  onContext number ("Failed to record output of step " ++ step.label)
    (Context.recordOutput step.output output)
  return output

/-- Takes a step with the context locked. -/
def takeStepLocked (executor : Executor) (input : RunInput) (flag number : Nat) (step : Step) :
    Program World Mishap Json := do
  World.lock number flag
  let result ← (takeStep executor input flag number step).attempt
  .modify (·.unlock flag)
  .ofExcept result

/-- Takes the steps that are left. -/
def takeSteps (executor : Executor) (input : RunInput) (flag number : Nat) (taken : Nat)
    (outputs : KeyMap Json) : List Step → Program World Mishap Summary
  | [] => return ⟨input.run, .completed, taken, outputs⟩
  | step :: rest => do
    if (← .get).flagged flag then
      report (.runCancelled input.run step.label)
      return ⟨input.run, .cancelled, taken, outputs⟩
    else
      let output ← takeStepLocked executor input flag number step
      takeSteps executor input flag number (taken + 1) (outputs.insert step.output.key output) rest

/-- Opens the context of a run. -/
def openContext (input : RunInput) (declarations : Declarations) : Program World Failure Nat := do
  match ← (Registry.create input.run input.organization declarations).attempt with
  | .ok number => return number
  | .error (e : BindingError) =>
    if e.isDefinitionError then report (.definitionRejected input.run e)
    .fail ((Failure.ofBinding e).whileDoing ("Failed to initialize run " ++ input.run))

/-- Performs a run. It stops before its next step once its flag is raised. -/
def perform (executor : Executor) (input : RunInput) (flag : Nat) :
    Program World Failure Summary := do
  let declarations ← .ofExcept
    ((input.workflow.declarations input.inputs).mapError Failure.ofReport)
  report (.runStarting input.run input.organization.id input.workflow.steps.length)
  let number ← input.openContext declarations
  let result ← (takeSteps executor input flag number 0 ∅ input.workflow.steps).attempt
  let _ ← Registry.discard input.run
  match result with
  | .ok summary =>
    report (.runFinished input.run summary.status.shown summary.stepsCompleted)
    return summary
  | .error (mishap : Mishap) =>
    let failure := mishap.toFailure input.run
    report (.runFailed input.run failure.headline)
    .fail failure

end RunInput

end RunParams
