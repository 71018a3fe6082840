import RunParams.Scheduler.Basic

/-!
# One thread and its clock

The order in which a single thread lets tasks and their caller take turns. Tasks that can go on
stand in a queue, and each runs until it has to wait. The caller goes on when the queue is empty,
or, if what it waits for is there, after a `stretch` of tasks. When all have to wait, the clock
jumps to the next tick that someone waits for. If the caller waits for that tick too, the caller
goes first and leaves the others in the queue.

Nothing here takes turns at a point where it does not have to wait: locks that nobody holds are
passed at once.
-/

namespace RunParams

/-- What can stand in the queue. -/
inductive Thread where
  | task (number : Nat)
  | sweeper (number : Nat)
  deriving DecidableEq, Repr

/-- Sweeps again and again. -/
structure Sweeper where
  /-- The tick of the next sweep, if there was one already. -/
  due : Option Nat
  stopped : Bool
  deriving DecidableEq, Repr

/-- A scheduler and who is to go on. -/
structure Timeline where
  system : System
  /-- Who can go on, in order. -/
  queue : List Thread
  /-- Who has to wait, in the order in which they stopped. -/
  waiting : List Thread
  sweepers : List Sweeper

namespace Timeline

/-- A scheduler without runs. -/
def ofSystem (system : System) : Timeline := ⟨system, [], [], []⟩

/-- The ticks that have passed. -/
def clock (t : Timeline) : Nat := t.system.world.around.clock

/-! ## Letting threads go on -/

/-- Lets a task go on as far as it can. -/
def pollTask (t : Timeline) (number : Nat) : Timeline :=
  match t.system.tasks[number]? with
  | none => t
  | some task =>
    match task.state with
    | .running wait resume =>
      match (Paused.waiting t.system.world wait resume).advance World.isOver with
      | .waiting world wait resume =>
        { t with
          system := t.system.setRun number (.waiting world wait resume)
          waiting := t.waiting ++ [.task number] }
      | .ended world result =>
        let s := { t.system with world }.store task.run (.ofResult result)
        { t with system := ((s.unflag task.run).leave task.run).setTask number .ended }
    | _ => t

/-- Lets a sweeper go on. Its first sweep comes at once. -/
def pollSweeper (t : Timeline) (number : Nat) : Timeline :=
  match t.sweepers[number]? with
  | none => t
  | some sweeper =>
    if sweeper.stopped then t
    else
      let due := sweeper.due.getD t.clock
      let next := if due ≤ t.clock then due + t.system.settings.sweepInterval.ticks else due
      { t with
        system := if due ≤ t.clock then t.system.sweep else t.system
        waiting := t.waiting ++ [.sweeper number]
        sweepers := t.sweepers.set number { sweeper with due := some next } }

/-- Lets a thread go on. -/
def poll (t : Timeline) : Thread → Timeline
  | .task number => t.pollTask number
  | .sweeper number => t.pollSweeper number

/-- How many threads go on before the caller has a turn again. -/
def stretch : Nat := 61

/-- Lets threads go on that have left the queue, up to the end of a stretch at which something is
true; those that are left then stand in the queue again. `left` of them belong to the first
stretch. -/
def pollUntil (isThere : Timeline → Bool) : (left : Nat) → List Thread → Timeline → Timeline
  | _, [], t => t
  | 0, thread :: rest, t =>
    let stopped := { t with queue := thread :: rest }
    if isThere stopped then stopped
    else pollUntil isThere (stretch - 1) rest (t.poll thread)
  | left + 1, thread :: rest, t => pollUntil isThere left rest (t.poll thread)

/-- Lets everyone in the queue go on, or as many stretches of them as come before something is true.
-/
def goOnUntil (isThere : Timeline → Bool) (t : Timeline) : Timeline :=
  pollUntil isThere stretch t.queue { t with queue := [] }

/-- Lets everyone in the queue go on. -/
def settle (t : Timeline) : Timeline := t.goOnUntil fun _ => false

/-! ## Passing time -/

/-- The tick that a thread waits for, if it is that. -/
def due? (t : Timeline) : Thread → Option Nat
  | .task number =>
    match t.system.tasks[number]?.map Task.state with
    | some (.running (.clock due) _) => some due
    | _ => none
  | .sweeper number => (t.sweepers[number]?.filter fun s => !s.stopped).bind Sweeper.due

/-- Whether a thread can go on. -/
def canGoOn (t : Timeline) : Thread → Bool
  | .task number =>
    match t.system.tasks[number]?.map Task.state with
    | some (.running wait _) => World.isOver wait t.system.world
    | _ => false
  | .sweeper number => ((t.due? (.sweeper number)).map fun due => decide (due ≤ t.clock)).getD false

/-- Puts some of those who wait into the queue. -/
def rouse (isRoused : Thread → Bool) (t : Timeline) : Timeline :=
  { t with
    queue := t.queue ++ t.waiting.filter isRoused
    waiting := t.waiting.filter fun thread => !isRoused thread }

/-- Puts those who can go on into the queue. -/
def wake (t : Timeline) : Timeline := t.rouse t.canGoOn

/-- The next tick that someone waits for. -/
def nextDue (t : Timeline) : Option Nat := (t.waiting.filterMap t.due?).min?

/-- Lets the clock jump to a tick. -/
def jump (t : Timeline) (due : Nat) : Timeline :=
  { t with system := { t.system with world := t.system.world.clockTo due } }.wake

/-- Lets everyone go on until a tick, or until something is true. Each jump takes at least one tick,
so `fuel` need not be more than the ticks that are left. -/
def runUntil (isThere : Timeline → Bool) (deadline : Nat) : (fuel : Nat) → Timeline → Timeline
  | 0, t => t.goOnUntil isThere
  | fuel + 1, t =>
    let t := t.goOnUntil isThere
    if isThere t then t
    else match t.nextDue with
      | some due =>
        if due < deadline then runUntil isThere deadline fuel (t.jump due) else t.jump deadline
      | none => t.jump deadline

/-! ## What a caller can do -/

/-- Starts a run, unless it is active. -/
def start (executor : Executor) (input : RunInput) (t : Timeline) :
    Except Failure Unit × Timeline :=
  match t.system.start executor input with
  | (.error failure, system) => (.error failure, { t with system })
  | (.ok (), system) =>
    (.ok (), { t with system, queue := t.queue ++ [.task t.system.tasks.length] })

/-- Asks a run to stop, and says whether that is still possible. -/
def cancel (run : String) (t : Timeline) : Bool × Timeline :=
  let (found, system) := t.system.cancel run
  (found, { t with system })

/-- Gives a gate more permits. -/
def release (gate : String) (count : Nat) (t : Timeline) : Timeline :=
  { t with system := { t.system with world := t.system.world.permit gate count } }.wake

/-- Sleeps for some ticks; for none it does not even stop. -/
def sleep (ticks : Nat) (t : Timeline) : Timeline :=
  if ticks = 0 then t else t.runUntil (fun _ => false) (t.clock + ticks) ticks

/-- Waits some ticks for a run to end. The result is the outcome if there is one to collect, or an
error if the run is still active. -/
def wait (run : String) (ticks : Nat) (t : Timeline) : Except Unit (Option Outcome) × Timeline :=
  let isThere (t : Timeline) : Bool := !t.system.isActive run
  let t := if isThere t then t else t.runUntil isThere (t.clock + ticks) ticks
  if isThere t then
    let (outcome, system) := t.system.collect run
    (.ok outcome, { t with system })
  else (.error (), t)

/-- Drops old outcomes and says how many. -/
def prune (maxAge : Duration) (t : Timeline) : Nat × Timeline :=
  let (count, system) := t.system.prune maxAge
  (count, { t with system })

/-- Starts a sweeper. Without an interval between two sweeps it never does one. -/
def startSweeper (t : Timeline) : Timeline :=
  { t with
    queue := t.queue ++ [.sweeper t.sweepers.length]
    sweepers := t.sweepers ++ [⟨none, t.system.settings.sweepInterval.nanos == 0⟩] }

/-- Stops the sweeper that was started last. It has one more turn, in which it does nothing. -/
def stopSweeper (t : Timeline) : Timeline :=
  let last := t.sweepers.length - 1
  let isLast (thread : Thread) : Bool := thread = .sweeper last
  { t with sweepers := t.sweepers.modify last fun s => { s with stopped := true } }.rouse isLast

/-- Aborts all active runs and discards their contexts. If there are some, it has to wait until each
of their tasks has had one more turn, in which it ends. -/
def shutdown (t : Timeline) : Timeline :=
  let (aborted, system) := (t.system.logged .shuttingDown).abortAll
  let isAborted (thread : Thread) : Bool := aborted.any fun e => thread = .task e.2
  let t := { t with system }.rouse isAborted
  let t := if aborted.isEmpty then t else t.goOnUntil fun t => !t.queue.any isAborted
  { t with system := aborted.foldl (fun s e => s.retire e.1) t.system }

end Timeline

end RunParams
