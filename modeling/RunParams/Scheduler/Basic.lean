import RunParams.Run.Perform
import RunParams.Settings

/-!
# The scheduler

The scheduler performs runs in the background, each in a task of its own. It keeps four tables by
run id: the active runs with their tasks, the flags that ask runs to stop, the outcomes that nobody
has collected yet, and, in the world, the live contexts. When its run is over, a task stores the
outcome, removes the flag, removes itself from the active runs and signals that a run has ended, in
four steps between which others may get their turn.

Here are the pieces of work that are done at a stretch. In which order tasks and callers take turns
is the matter of `RunParams.Scheduler.Timeline`, the order of a single thread, and of
`RunParams.Scheduler.Interleaving`, every possible order.
-/

namespace RunParams

/-- How a run has ended. -/
inductive Outcome where
  | finished (summary : Summary)
  | failed (report : String)
  deriving Inhabited

/-- The outcome with the result of a run. An executor that panics has made its run fail already. A
panic outside the steps, which could only come from the stores, has no result and is not modelled:
stores answer or fail, and do not panic. -/
def Outcome.ofResult : Except Failure Summary → Outcome
  | .ok summary => finished summary
  | .error failure => failed failure.message

/-- How far a task has come. -/
inductive TaskState where
  /-- It performs its run and waits for something. -/
  | running (wait : Wait) (resume : World → Paused World Failure Summary)
  /-- Its run is over, and the outcome is to be stored. -/
  | storing (outcome : Outcome)
  /-- Its flag is to be removed. -/
  | unflagging
  /-- It is to be removed from the active runs. -/
  | leaving
  | ended
  | aborted

/-- Whether a task will do nothing any more. -/
def TaskState.isOver : TaskState → Bool
  | ended | aborted => true
  | _ => false

/-- A run in the background. -/
structure Task where
  run : String
  flag : Nat
  state : TaskState

/-- An outcome and the tick at which it was stored. -/
structure Ending where
  outcome : Outcome
  endedAt : Nat

/-- The state of a scheduler. -/
structure System where
  settings : RunnerSettings
  world : World
  /-- All tasks by number. -/
  tasks : List Task
  /-- The tasks of the active runs. -/
  active : KeyMap Nat
  /-- The flags of runs that can be asked to stop. -/
  signals : KeyMap Nat
  outcomes : KeyMap Ending
  /-- How many times it was signalled that a run has ended. -/
  endings : Nat

namespace System

/-- A scheduler without runs. -/
def ofWorld (settings : RunnerSettings) (world : World) : System :=
  ⟨settings, world, [], ∅, ∅, ∅, 0⟩

/-- Reports an event. -/
def logged (s : System) (event : Event) : System := { s with world := s.world.logged [event] }

/-- Whether a run is active. -/
def isActive (s : System) (run : String) : Bool := s.active.contains run

/-- The outcome of a run, if nobody has collected it. -/
def outcome? (s : System) (run : String) : Option Outcome :=
  (s.outcomes.get? run).map Ending.outcome

/-- The failure to start a run that is active. -/
def alreadyRunning (run : String) : Failure := .ofReport ("Run " ++ run ++ " is already running")

/-! ## Starting and stopping runs -/

/-- Adds a task for a run with a flag of its own. -/
def enlist (executor : Executor) (input : RunInput) (s : System) : System :=
  let (flag, world) := s.world.addFlag
  { s with
    world
    tasks := s.tasks ++ [⟨input.run, flag, .running .turn (input.perform executor flag)⟩]
    signals := s.signals.insert input.run flag
    active := s.active.insert input.run s.tasks.length }

/-- Starts a run, unless it is active. -/
def start (executor : Executor) (input : RunInput) (s : System) : Except Failure Unit × System :=
  let s := s.logged (.taskStarting input.run)
  if s.isActive input.run then (.error (alreadyRunning input.run), s)
  else (.ok (), s.enlist executor input)

/-- Asks a run to stop before its next step, and says whether that is still possible. -/
def cancel (run : String) (s : System) : Bool × System :=
  let s := s.logged (.cancelling run)
  match s.signals.get? run with
  | some flag => (true, { s with world := s.world.raiseFlag flag })
  | none => (false, s)

/-- Takes the outcome of a run away. -/
def collect (run : String) (s : System) : Option Outcome × System :=
  (s.outcome? run, { s with outcomes := s.outcomes.erase run })

/-! ## Tasks -/

/-- Puts a task into a state. -/
def setTask (s : System) (number : Nat) (state : TaskState) : System :=
  { s with tasks := s.tasks.modify number fun t => { t with state } }

/-- The state after a task has performed its run as far as it could. -/
def setRun (s : System) (number : Nat) : Paused World Failure Summary → System
  | .waiting world wait resume => { s with world }.setTask number (.running wait resume)
  | .ended world result => { s with world }.setTask number (.storing (.ofResult result))

/-- Stores the outcome of a run. -/
def store (s : System) (run : String) (outcome : Outcome) : System :=
  { s with outcomes := s.outcomes.insert run ⟨outcome, s.world.around.clock⟩ }

/-- Removes the flag of a run. -/
def unflag (s : System) (run : String) : System := { s with signals := s.signals.erase run }

/-- Removes a run from the active ones and signals that it has ended. -/
def leave (s : System) (run : String) : System :=
  { s with active := s.active.erase run, endings := s.endings + 1 }

/-- Lets a task do what comes next after its run. -/
def wrapUp (s : System) (number : Nat) (task : Task) : System :=
  match task.state with
  | .storing outcome => (s.store task.run outcome).setTask number .unflagging
  | .unflagging => (s.unflag task.run).setTask number .leaving
  | .leaving => (s.leave task.run).setTask number .ended
  | .running _ _ | .ended | .aborted => s

/-- Ends a task before its time. -/
def abort (s : System) (number : Nat) : System :=
  match s.tasks[number]? with
  | none => s
  | some task =>
    if task.state.isOver then s
    else { s with world := s.world.unlock task.flag }.setTask number .aborted

/-! ## Tidying up -/

/-- Drops the outcomes that were stored longer ago than a duration, and says how many. -/
def prune (maxAge : Duration) (s : System) : Nat × System :=
  let keeps (ending : Ending) : Bool :=
    (Duration.millis (s.world.around.clock - ending.endedAt)).nanos ≤ maxAge.nanos
  let outcomes := s.outcomes.filter fun _ ending => keeps ending
  (s.outcomes.size - outcomes.size, { s with outcomes })

/-- Discards the contexts that are too old at a reading of the calendar. -/
def expireAt (now : Nat) (s : System) : System :=
  match Registry.expireAt now s.settings.maxRunAge s.world with
  | ([], world) => { s with world }
  | (runs, world) => { s with world }.logged (.contextsExpired runs.length)

/-- Drops the outcomes that are too old. -/
def pruneOld (s : System) : System :=
  match s.prune s.settings.maxRunAge with
  | (0, s) => s
  | (count, s) => s.logged (.outcomesPruned count)

/-- Reads the calendar. -/
def readCalendar (s : System) : Nat × System :=
  (s.world.calendar + 1, { s with world := { s.world with calendar := s.world.calendar + 1 } })

/-- Discards the contexts and drops the outcomes that are too old. -/
def sweep (s : System) : System :=
  let (now, s) := s.readCalendar
  (s.expireAt now).pruneOld

/-- Empties the table of active runs and aborts their tasks. -/
def abortAll (s : System) : List (String × Nat) × System :=
  let aborted := s.active.entries
  (aborted, aborted.foldl (fun s e => (s.logged (.aborting e.1)).abort e.2) { s with active := ∅ })

/-- Discards the live context of a run. -/
def discard (run : String) (s : System) : System :=
  { s with world := Registry.discardNow run s.world |>.2 }

/-- Discards the context of a run that was aborted and removes its flag. -/
def retire (run : String) (s : System) : System := (s.discard run).unflag run

end System

end RunParams
