import RunParams.Lookup.Memory
import RunParams.Proofs.Scheduler.Runs

/-!
# Asking a run to stop

A run is asked to stop through the flag under its id. A call that starts a run enters the flag along
with the run, and its task removes the flag when the outcome is stored, before the run leaves the
table of active runs. So the flag under the id of an active run is the one that its task looks for
(`Machine.Cancellable`).

A shutdown removes flags as well, by id and after it has let go of the table of active runs. Then
the run whose flag it removes may be one that was started since. That is the only way to lose the
flag of an active run (`Machine.active_cancellable`).

As long as the flag is there, the run can be asked to stop, and then takes no step for which it has
not looked already: none at all, unless it waits for the lock of its context, and in that case one.
-/

namespace RunParams

namespace System

variable {s : System} {number : Nat} {task : Task}

/-- Under the id of every active run, as long as its outcome is not stored, stands the flag that its
task looks for. -/
def Cancellable (s : System) : Prop :=
  ∀ run number task, s.active.get? run = some number → s.tasks[number]? = some task →
    task.state.hasStored = false → s.signals.get? run = some task.flag

/-- A task that goes on, and has not stored its outcome before if it has not then, leaves the flags
of active runs where they are. -/
theorem Cancellable.setTask (h : s.Cancellable) {state : TaskState}
    (hthere : s.tasks[number]? = some task)
    (hstored : state.hasStored = false → task.state.hasStored = false) :
    (s.setTask number state).Cancellable := by
  intro run other found hactive hfound hnot
  -- It is the task whose state was set, which had not stored before either, or another one.
  rcases task_of_setTask hthere hfound with ⟨rfl, rfl⟩ | ⟨-, hfound⟩
  · exact h run other task hactive hthere (hstored hnot)
  · exact h run other found hactive hfound hnot

end System

namespace Machine

variable {executor : Executor} {m m' : Machine} {move : Move} {d : Option Deed} {number : Nat}

/-- How many steps a task has executed by a move that leads to a machine. -/
def stepsTo (m : Machine) (number : Nat) (move : Move) (m' : Machine) : Nat :=
  match move with
  | .task other =>
    if other = number then m'.system.world.calls.length - m.system.world.calls.length else 0
  | _ => 0

/-- A task has its flag raised, as long as it performs its run, and does not execute more than some
steps before it looks for it. -/
def Heeds (executor : Executor) (m : Machine) (number budget : Nat) : Prop :=
  ∀ t, m.system.tasks[number]? = some t → t.state.performs = true →
    m.system.world.flagged t.flag = true ∧ ∃ q, t.InPhase executor q ∧ q.allowance ≤ budget

/-- A task executes no step by another's move. -/
theorem stepsTo_of_ne (h : move ≠ .task number) : m.stepsTo number move m' = 0 := by
  cases move with
  | task other => exact if_neg fun hother => h (congrArg Move.task hother)
  | start _ | wait _ | shutdown | sweep | work _ | cancel _ | prune _ | call _ | tick _ => rfl

/-- A task executes by its own move the steps that are noted then. -/
theorem stepsTo_own : m.stepsTo number (.task number) m' =
    m'.system.world.calls.length - m.system.world.calls.length :=
  if_pos rfl

/-- A task that has its flag raised still has it raised after a turn, and the steps that it has
executed then are not left to it any more. -/
theorem Heeds.turn {budget : Nat} (hturn : Turn executor m move d m')
    (hsteered : m.Steered executor) (hmove : move.isWork = false)
    (hkeeps : executor.KeepsStopping) (hthere : number < m.system.tasks.length)
    (h : m.Heeds executor number budget) :
    m'.Heeds executor number (budget - m.stepsTo number move m') := by
  -- A flag that was raised stays raised, whatever happens.
  have hrise := flagsRise_turn hturn hsteered.phased hsteered.unworked hmove hkeeps
  intro found hfound hrunning
  rcases hturn.running hfound hrunning with ⟨hsame, hstill⟩ |
    ⟨t, wait, resume, wait', resume', -, ht, hstate, hstretch, rfl⟩ | ⟨_, _, -, -, hnew, -⟩
  · -- The task has not moved, so it has not executed a step.
    obtain ⟨hraised, q, hq, hallowance⟩ := h found hsame hrunning
    have hnone : m.stepsTo number move m' = 0 := by
      by_cases hown : move = .task number
      · rw [hown, stepsTo_own, (hstill hown).calls, Nat.sub_self]
      · exact stepsTo_of_ne hown
    rw [hnone]
    exact ⟨hrise.raised found.flag hraised, q, hq, hallowance⟩
  · -- The task has gone on to its next wait, and will look for its flag before its next step.
    obtain ⟨hraised, q, hq, -⟩ := h t ht (TaskState.performs_iff.mpr ⟨wait, resume, hstate⟩)
    obtain ⟨q', hstep, hq'⟩ := hq.ran hstate hstretch
    have hunchecked : q'.allowance = 0 := if_neg (by rw [hstep.heeds hkeeps hraised]; nofun)
    refine ⟨hrise.raised t.flag hraised, q', hq', ?_⟩
    rw [hunchecked]
    exact Nat.zero_le _
  · -- A new task has a number of its own.
    omega

end Machine

end RunParams
