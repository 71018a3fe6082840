import RunParams.Scheduler.Basic

/-!
# All orders of turns

A `Machine` is a scheduler in the midst of calls. A call and a task do their work in pieces; between
two pieces, and also where nothing has to be waited for, anyone else may have their turn. A `Move`
says whose piece comes next, so that a list of moves is one order of turns, and `Machine.run` what
comes of it. A move that is not possible changes nothing.

Whoever starts a run holds the table of active runs until the run is in it. Meanwhile nobody else
reads or changes that table.
-/

namespace RunParams

/-- How far a call has come. -/
inductive CallState where
  /-- Starting a run: the table of active runs is awaited. -/
  | starting (input : RunInput)
  /-- Starting a run: the table is held and the flags are awaited. -/
  | listing (input : RunInput)
  | started (task : Nat)
  | refused (run : String)
  /-- Waiting for a run: whether it is active is to be seen. Endings after `seen` will be noticed.
  -/
  | watching (run : String) (seen : Nat)
  /-- Waiting for a run: the next ending is awaited. -/
  | sleeping (run : String) (seen : Nat)
  /-- Waiting for a run: it is not active, and its outcome is to be collected. -/
  | collecting (run : String)
  | collected (run : String) (outcome : Option Outcome)
  /-- Shutting down: the table of active runs is awaited. -/
  | closing
  /-- Shutting down: the end of the aborted tasks is awaited. -/
  | joining (aborted : List (String × Nat))
  /-- Shutting down: the contexts of these runs are to be discarded. -/
  | discarding (runs : List String)
  /-- Shutting down: the flag of a run is to be removed, before other runs follow. -/
  | unflagging (run : String) (rest : List String)
  | closed
  /-- Sweeping: the calendar is to be read. -/
  | sweeping
  /-- Sweeping: the contexts that are too old at a reading are to be discarded. -/
  | expiring (now : Nat)
  /-- Sweeping: the outcomes that are too old are to be dropped. -/
  | pruning
  | swept
  /-- Other work on the world, which waits for something. -/
  | working (wait : Wait) (resume : World → Paused World BindingError Unit)
  | worked (result : Except BindingError Unit)

/-- A scheduler in the midst of calls. -/
structure Machine where
  system : System
  /-- All calls by number. -/
  calls : List CallState
  /-- The call that holds the table of active runs. -/
  holder : Option Nat

/-- Whose piece of work comes next. -/
inductive Move where
  /-- Someone calls for a run to be started. -/
  | start (input : RunInput)
  /-- Someone calls to wait for a run. -/
  | wait (run : String)
  /-- Someone calls for a shutdown. -/
  | shutdown
  /-- A sweeper begins a sweep. -/
  | sweep
  /-- Someone begins other work on the world. -/
  | work (program : Program World BindingError Unit)
  /-- Someone asks a run to stop. -/
  | cancel (run : String)
  /-- Someone drops old outcomes. -/
  | prune (maxAge : Duration)
  /-- A task goes on. -/
  | task (number : Nat)
  /-- A call goes on. -/
  | call (number : Nat)
  /-- Time passes. -/
  | tick (count : Nat)

namespace Machine

/-- A scheduler without runs and calls. -/
def ofWorld (settings : RunnerSettings) (world : World) : Machine :=
  ⟨.ofWorld settings world, [], none⟩

/-- Adds a call. -/
def addCall (m : Machine) (state : CallState) : Machine := { m with calls := m.calls ++ [state] }

/-- Puts a call into a state and the scheduler into another. -/
def goOn (m : Machine) (number : Nat) (state : CallState) (system : System) : Machine :=
  { m with system, calls := m.calls.set number state }

/-- Whether a task will do nothing any more. -/
def isTaskOver (m : Machine) (number : Nat) : Bool :=
  (m.system.tasks[number]?.map fun t => t.state.isOver).getD true

/-- Lets a task do its next piece of work. -/
def stepTask (m : Machine) (number : Nat) : Machine :=
  match m.system.tasks[number]? with
  | none => m
  | some task =>
    match task.state with
    | .running wait resume =>
      if World.isOver wait m.system.world then
        { m with system := m.system.setRun number (resume m.system.world) }
      else m
    | .leaving => if m.holder.isNone then { m with system := m.system.wrapUp number task } else m
    | _ => { m with system := m.system.wrapUp number task }

/-- Lets a call to start a run do its next piece of work. -/
def stepStart (executor : Executor) (m : Machine) (number : Nat) : CallState → Machine
  | .starting input =>
    if m.holder.isSome then m
    else if m.system.isActive input.run then m.goOn number (.refused input.run) m.system
    else { m with holder := some number }.goOn number (.listing input) m.system
  | .listing input =>
    { m with holder := none }.goOn number (.started m.system.tasks.length)
      (m.system.enlist executor input)
  | _ => m

/-- Lets a call to wait for a run do its next piece of work. -/
def stepWait (m : Machine) (number : Nat) : CallState → Machine
  | .watching run seen =>
    if m.holder.isSome then m
    else if m.system.isActive run then m.goOn number (.sleeping run seen) m.system
    else m.goOn number (.collecting run) m.system
  | .sleeping run seen =>
    if seen < m.system.endings then m.goOn number (.watching run m.system.endings) m.system else m
  | .collecting run =>
    let (outcome, system) := m.system.collect run
    m.goOn number (.collected run outcome) system
  | _ => m

/-- Lets a call for a shutdown do its next piece of work. -/
def stepShutdown (m : Machine) (number : Nat) : CallState → Machine
  | .closing =>
    if m.holder.isSome then m
    else
      let (aborted, system) := m.system.abortAll
      m.goOn number (.joining aborted) system
  | .joining aborted =>
    if aborted.all fun e => m.isTaskOver e.2 then
      m.goOn number (.discarding (aborted.map (·.1))) m.system
    else m
  | .discarding [] => m.goOn number .closed m.system
  | .discarding (run :: rest) =>
    m.goOn number (.unflagging run rest) (m.system.discard run)
  | .unflagging run rest => m.goOn number (.discarding rest) (m.system.unflag run)
  | _ => m

/-- Lets a sweep do its next piece of work. -/
def stepSweep (m : Machine) (number : Nat) : CallState → Machine
  | .sweeping =>
    let (now, system) := m.system.readCalendar
    m.goOn number (.expiring now) system
  | .expiring now => m.goOn number .pruning (m.system.expireAt now)
  | .pruning => m.goOn number .swept m.system.pruneOld
  | _ => m

/-- The state of other work after a piece of it. -/
def worked (m : Machine) (number : Nat) : Paused World BindingError Unit → Machine
  | .waiting world wait resume =>
    m.goOn number (.working wait resume) { m.system with world }
  | .ended world result => m.goOn number (.worked result) { m.system with world }

/-- Lets a call do its next piece of work. -/
def stepCall (executor : Executor) (m : Machine) (number : Nat) : Machine :=
  match m.calls[number]? with
  | none => m
  | some state =>
    match state with
    | .starting _ | .listing _ => m.stepStart executor number state
    | .watching _ _ | .sleeping _ _ | .collecting _ => m.stepWait number state
    | .closing | .joining _ | .discarding _ | .unflagging _ _ => m.stepShutdown number state
    | .sweeping | .expiring _ | .pruning => m.stepSweep number state
    | .working wait resume =>
      if World.isOver wait m.system.world then m.worked number (resume m.system.world) else m
    | .started _ | .refused _ | .collected _ _ | .closed | .swept | .worked _ => m

/-- The machine after a move. -/
def step (executor : Executor) (m : Machine) : Move → Machine
  | .start input =>
    { m with system := m.system.logged (.taskStarting input.run) }.addCall (.starting input)
  | .wait run => m.addCall (.watching run m.system.endings)
  | .shutdown => { m with system := m.system.logged .shuttingDown }.addCall .closing
  | .sweep => m.addCall .sweeping
  | .work program => (m.addCall .swept).worked m.calls.length (program m.system.world)
  | .cancel run => { m with system := (m.system.cancel run).2 }
  | .prune maxAge => { m with system := (m.system.prune maxAge).2 }
  | .task number => m.stepTask number
  | .call number => m.stepCall executor number
  | .tick count =>
    let world := m.system.world
    { m with system := { m.system with world := world.clockTo (world.around.clock + count) } }

/-- The machine after some moves. -/
def run (executor : Executor) (m : Machine) (moves : List Move) : Machine :=
  moves.foldl (step executor) m

end Machine

end RunParams
