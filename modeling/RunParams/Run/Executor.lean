import RunParams.Run.Failure
import RunParams.Workflow
import RunParams.World

/-!
# Executing a step

How a step does its work is up to an executor. It sees the step and the context, which it cannot
change; it can report events, wait, and ask the run to stop. What it produces is the output of the
step. `echo` is an executor that repeats the values of the step's parameters.
-/

namespace RunParams

/-- What an executor may use of the world. -/
structure Stage where
  clock : Nat
  log : List Event
  permits : KeyMap Nat
  /-- Whether the run is asked to stop. -/
  stopping : Bool

namespace Stage

/-- The stage for the run with a flag. -/
def ofWorld (flag : Nat) (w : World) : Stage :=
  ⟨w.around.clock, w.around.log, w.permits, w.flagged flag⟩

/-- The world after some work on the stage. The clock is not an executor's to set. -/
def toWorld (flag : Nat) (s : Stage) (w : World) : World :=
  { w with
    around := { w.around with log := s.log }
    permits := s.permits
    flags := w.flags.set flag s.stopping }

/-- Reports an event. -/
def report {ε : Type} (event : Event) : Program Stage ε Unit :=
  .modify fun s => { s with log := s.log ++ [event] }

/-- Waits for some ticks; for none it does not even stop. -/
def sleep {ε : Type} (ticks : Nat) : Program Stage ε Unit := fun s =>
  if ticks = 0 then .ended s (.ok ()) else Program.waitFor (.clock (s.clock + ticks)) s

/-- Waits for a permit of a gate and takes it. -/
def takePermit {ε : Type} (gate : String) : Program Stage ε Unit := do
  .waitFor (.permit gate)
  .modify fun s =>
    { s with permits := s.permits.insert gate ((s.permits.get? gate).getD 0 - 1) }

/-- Asks the run to stop before its next step. -/
def stop {ε : Type} : Program Stage ε Unit := .modify fun s => { s with stopping := true }

end Stage

/-- Does the work of a step. -/
def Executor := Step → Context → Program Stage Mishap Json

/-- The values of some parameters, as far as they have one. -/
def valuesOf (c : Context) (parameters : List Parameter) : KeyMap Json :=
  .ofList (parameters.filterMap fun p => (c.store.value? p.key).map fun value => (p.key, value))

/-- The output of a completed step that has extracted some values. -/
def completedOutput (extracted : KeyMap Json) : Json :=
  .ofMembers [("status", .text Store.completed), (Store.extractedKey, .ofMap extracted)]

/-- Repeats the values of the step's parameters. -/
def echo : Executor := fun step context => do
  let extracted := valuesOf context step.parameters
  Stage.report (.echoing context.run step.label extracted.size)
  return completedOutput extracted

end RunParams
