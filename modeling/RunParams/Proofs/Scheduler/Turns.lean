import RunParams.Scheduler.Interleaving

/-!
# What a move brings about

A move of a `Machine` lets a call or a task do its next piece of work, if it can. `Machine.Turn`
lists what this may come to: a task performs its run a little further, stores its outcome, removes
its flag or leaves; a run is started; a call to wait goes to sleep, wakes up or returns; a shutdown
aborts the active runs, discards a context or removes a flag; and so on, each with what has to hold
for it. Where no run goes on, what runs share is changed only as the turn says (`World.Untouched`).
`Machine.turn_step` says that every move is one of them, so what all turns preserve is preserved by
every order of moves.

The turns that an account of the outcomes has to know carry a `Deed`, which `Machine.deed?` reads
off the machine and the move.
-/

namespace RunParams

/-- What a move does that an account of the outcomes has to know. -/
inductive Deed where
  /-- A run is started in a task. -/
  | started (task : Nat) (run : String)
  /-- The run of a task is over. -/
  | finished (task : Nat) (outcome : Outcome)
  /-- A task stores the outcome of its run. -/
  | stored (task : Nat) (run : String) (outcome : Outcome)
  /-- Someone calls to wait for a run. -/
  | awaited (call : Nat) (run : String)
  /-- A call to wait for a run returns. -/
  | collected (call : Nat) (run : String) (outcome : Option Outcome)

/-- Whether a call neither starts a run nor waits for one. -/
def CallState.isAside : CallState → Bool
  | closing | joining _ | discarding _ | unflagging _ _ | closed => true
  | sweeping | expiring _ | pruning | swept | working _ _ | worked _ => true
  | _ => false

/-- Whether a call shuts down or sweeps. -/
def CallState.tidiesUp : CallState → Bool
  | closing | joining _ | discarding _ | unflagging _ _ | closed => true
  | sweeping | expiring _ | pruning | swept => true
  | _ => false

/-- Whether a call does other work than that of a scheduler. -/
def CallState.works : CallState → Bool
  | working _ _ => true
  | _ => false

/-- Whether a move begins other work than that of a scheduler. -/
def Move.isWork : Move → Bool
  | work _ => true
  | _ => false

/-- Whether a move drops outcomes, or calls for a sweep or a shutdown. -/
def Move.tidiesUp : Move → Bool
  | shutdown | sweep | prune _ => true
  | _ => false

/-- Whether a task has stored its outcome. -/
def TaskState.hasStored : TaskState → Bool
  | unflagging | leaving | ended => true
  | _ => false

/-- What runs share is the same: the live contexts, all contexts, the executions of steps and the
flags. -/
structure World.Untouched (w w' : World) : Prop where
  live : w'.live = w.live
  contexts : w'.contexts = w.contexts
  calls : w'.calls = w.calls
  flags : w'.flags = w.flags

/-- The state of a call that does other work on the world, after a piece of it. -/
def CallState.ofPaused : Paused World BindingError Unit → CallState
  | .waiting _ wait resume => .working wait resume
  | .ended _ result => .worked result

/-- Other work stands aside. -/
theorem CallState.isAside_ofPaused (p : Paused World BindingError Unit) :
    (CallState.ofPaused p).isAside = true := by
  cases p with
  | waiting _ _ _ | ended _ _ => rfl

/-- Other work neither shuts down nor sweeps. -/
theorem CallState.tidiesUp_ofPaused (p : Paused World BindingError Unit) :
    (CallState.ofPaused p).tidiesUp = false := by
  cases p with
  | waiting _ _ _ | ended _ _ => rfl

/-- The scheduler in another world. -/
def System.withWorld (s : System) (world : World) : System := { s with world }

/-- The scheduler with some of its outcomes only. -/
def System.keeping (s : System) (keep : Ending → Bool) : System :=
  { s with outcomes := s.outcomes.filter fun _ ending => keep ending }

namespace Machine

variable {executor : Executor} {m m' : Machine}

/-! ## Deeds -/

/-- What a task does next. -/
def taskDeed? (m : Machine) (number : Nat) : Option Deed :=
  match m.system.tasks[number]? with
  | none => none
  | some task =>
    match task.state with
    | .running wait resume =>
      if World.isOver wait m.system.world then
        match resume m.system.world with
        | .waiting _ _ _ => none
        | .ended _ result => some (.finished number (.ofResult result))
      else none
    | .storing outcome => some (.stored number task.run outcome)
    | _ => none

/-- What a call does next. -/
def callDeed? (m : Machine) (number : Nat) : Option Deed :=
  match m.calls[number]? with
  | some (.listing input) => some (.started m.system.tasks.length input.run)
  | some (.collecting run) => some (.collected number run (m.system.outcome? run))
  | _ => none

/-- What a move does. -/
def deed? (m : Machine) : Move → Option Deed
  | .wait run => some (.awaited m.calls.length run)
  | .task number => m.taskDeed? number
  | .call number => m.callDeed? number
  | _ => none

/-! ## Turns -/

/-- What may come of a move. -/
inductive Turn (executor : Executor) (m : Machine) : Move → Option Deed → Machine → Prop
  /-- Nothing that tables, tasks or calls would show. -/
  | still (move : Move) {world : World} (same : m.system.world.Untouched world) :
    Turn executor m move none { m with system := m.system.withWorld world }
  /-- The flag of a run is raised. -/
  | raised {run : String} {flag : Nat} (signal : m.system.signals.get? run = some flag)
    {world : World} (same : (m.system.world.raiseFlag flag).Untouched world) :
    Turn executor m (.cancel run) none { m with system := m.system.withWorld world }
  /-- Someone calls for a start, a shutdown or a sweep. -/
  | called {move : Move} {world : World} (same : m.system.world.Untouched world)
    (state : CallState)
    (new : state = .closing ∨ state = .sweeping ∨ ∃ input, state = .starting input)
    (kind : state.tidiesUp = move.tidiesUp) :
    Turn executor m move none ({ m with system := m.system.withWorld world }.addCall state)
  /-- Someone begins other work. -/
  | began (program : Program World BindingError Unit) :
    Turn executor m (.work program) none
      ({ m with system := m.system.withWorld (program m.system.world).state }.addCall
        (.ofPaused (program m.system.world)))
  | awaited (run : String) : Turn executor m (.wait run) (some (.awaited m.calls.length run))
    (m.addCall (.watching run m.system.endings))
  /-- A task performs its run up to the next wait. -/
  | ran {number : Nat} {task : Task} (there : m.system.tasks[number]? = some task) {wait : Wait}
    {resume : World → Paused World Failure Summary} (running : task.state = .running wait resume)
    {world : World} {wait' : Wait} {resume' : World → Paused World Failure Summary}
    (stretch : resume m.system.world = .waiting world wait' resume') :
    Turn executor m (.task number) none
      { m with system := (m.system.withWorld world).setTask number (.running wait' resume') }
  /-- A task performs its run to the end. -/
  | finished {number : Nat} {task : Task} (there : m.system.tasks[number]? = some task)
    {wait : Wait} {resume : World → Paused World Failure Summary}
    (running : task.state = .running wait resume) {world : World}
    {result : Except Failure Summary} (stretch : resume m.system.world = .ended world result) :
    Turn executor m (.task number) (some (.finished number (.ofResult result)))
      { m with system := (m.system.withWorld world).setTask number (.storing (.ofResult result)) }
  | stored {number : Nat} {task : Task} {outcome : Outcome}
    (there : m.system.tasks[number]? = some task) (storing : task.state = .storing outcome) :
    Turn executor m (.task number) (some (.stored number task.run outcome))
      { m with system := (m.system.store task.run outcome).setTask number .unflagging }
  | unflagged {number : Nat} {task : Task} (there : m.system.tasks[number]? = some task)
    (unflagging : task.state = .unflagging) :
    Turn executor m (.task number) none
      { m with system := (m.system.unflag task.run).setTask number .leaving }
  | left {number : Nat} {task : Task} (there : m.system.tasks[number]? = some task)
    (leaving : task.state = .leaving) (free : m.holder = none) :
    Turn executor m (.task number) none
      { m with system := (m.system.leave task.run).setTask number .ended }
  | refused {number : Nat} {input : RunInput} (there : m.calls[number]? = some (.starting input)) :
    Turn executor m (.call number) none (m.goOn number (.refused input.run) m.system)
  | listed {number : Nat} {input : RunInput} (there : m.calls[number]? = some (.starting input))
    (free : m.holder = none) (absent : m.system.active.get? input.run = none) :
    Turn executor m (.call number) none
      ({ m with holder := some number }.goOn number (.listing input) m.system)
  | started {number : Nat} {input : RunInput} (there : m.calls[number]? = some (.listing input)) :
    Turn executor m (.call number) (some (.started m.system.tasks.length input.run))
      ({ m with holder := none }.goOn number (.started m.system.tasks.length)
        (m.system.enlist executor input))
  | slept {number : Nat} {run : String} {seen : Nat}
    (there : m.calls[number]? = some (.watching run seen)) {task : Nat}
    (present : m.system.active.get? run = some task) :
    Turn executor m (.call number) none (m.goOn number (.sleeping run seen) m.system)
  | noticed {number : Nat} {run : String} {seen : Nat}
    (there : m.calls[number]? = some (.watching run seen))
    (absent : m.system.active.get? run = none) :
    Turn executor m (.call number) none (m.goOn number (.collecting run) m.system)
  | woken {number : Nat} {run : String} {seen : Nat}
    (there : m.calls[number]? = some (.sleeping run seen)) :
    Turn executor m (.call number) none (m.goOn number (.watching run m.system.endings) m.system)
  | collected {number : Nat} {run : String}
    (there : m.calls[number]? = some (.collecting run)) :
    Turn executor m (.call number) (some (.collected number run (m.system.outcome? run)))
      (m.goOn number (.collected run (m.system.outcome? run)) (m.system.collect run).2)
  /-- A shutdown aborts all active runs. -/
  | aborted {number : Nat} (there : m.calls[number]? = some .closing) (free : m.holder = none) :
    Turn executor m (.call number) none
      (m.goOn number (.joining m.system.abortAll.1) m.system.abortAll.2)
  /-- The tasks that a shutdown has aborted are over. -/
  | joined {number : Nat} {aborted : List (String × Nat)}
    (there : m.calls[number]? = some (.joining aborted)) :
    Turn executor m (.call number) none
      (m.goOn number (.discarding (aborted.map (·.1))) (m.system.withWorld m.system.world))
  /-- A shutdown discards a context. -/
  | discarded {number : Nat} {run : String} {rest : List String}
    (there : m.calls[number]? = some (.discarding (run :: rest))) :
    Turn executor m (.call number) none (m.goOn number (.unflagging run rest)
      (m.system.withWorld (Registry.discardNow run m.system.world).2))
  /-- A shutdown removes a flag. -/
  | stripped {number : Nat} {run : String} {rest : List String}
    (there : m.calls[number]? = some (.unflagging run rest)) :
    Turn executor m (.call number) none (m.goOn number (.discarding rest) (m.system.unflag run))
  /-- A shutdown has come to its end. -/
  | closed {number : Nat} (there : m.calls[number]? = some (.discarding [])) :
    Turn executor m (.call number) none
      (m.goOn number .closed (m.system.withWorld m.system.world))
  /-- A sweep reads the calendar. -/
  | read {number now : Nat} (there : m.calls[number]? = some .sweeping) {world : World}
    (same : m.system.world.Untouched world) :
    Turn executor m (.call number) none
      (m.goOn number (.expiring now) (m.system.withWorld world))
  /-- A sweep discards contexts. -/
  | expired {number now : Nat} (there : m.calls[number]? = some (.expiring now)) {world : World}
    (same : (Registry.expireAt now m.system.settings.maxRunAge m.system.world).2.Untouched world) :
    Turn executor m (.call number) none (m.goOn number .pruning (m.system.withWorld world))
  /-- Other work goes on. -/
  | worked {number : Nat} {wait : Wait} {resume : World → Paused World BindingError Unit}
    (there : m.calls[number]? = some (.working wait resume)) :
    Turn executor m (.call number) none (m.goOn number (.ofPaused (resume m.system.world))
      (m.system.withWorld (resume m.system.world).state))
  /-- Outcomes are dropped. -/
  | pruned (maxAge : Duration) (keep : Ending → Bool) :
    Turn executor m (.prune maxAge) none { m with system := m.system.keeping keep }
  /-- A sweep drops outcomes. -/
  | swept {number : Nat} (there : m.calls[number]? = some .pruning) {world : World}
    (same : m.system.world.Untouched world) (keep : Ending → Bool) :
    Turn executor m (.call number) none
      (m.goOn number .swept ((m.system.withWorld world).keeping keep))

/-- What runs share is the same when nothing happens. -/
theorem untouched_refl (w : World) : w.Untouched w := ⟨rfl, rfl, rfl, rfl⟩

/-- Nothing at all may come of a move. -/
theorem Turn.refl (m : Machine) (move : Move) : Turn executor m move none m :=
  .still move (untouched_refl m.system.world)

/-- Expiry is seen in the world only, and does there what it does to the live contexts. -/
theorem expireAt_eq (s : System) (now : Nat) :
    ∃ world, s.expireAt now = s.withWorld world ∧
      (Registry.expireAt now s.settings.maxRunAge s.world).2.Untouched world := by
  unfold System.expireAt
  rcases Registry.expireAt now s.settings.maxRunAge s.world with ⟨_ | ⟨run, runs⟩, world⟩
  · exact ⟨world, rfl, untouched_refl world⟩
  · exact ⟨world.logged [.contextsExpired (run :: runs).length], rfl, rfl, rfl, rfl, rfl⟩

/-- Dropping old outcomes keeps the others. -/
theorem prune_eq (s : System) (maxAge : Duration) :
    ∃ keep, (s.prune maxAge).2 = s.keeping keep :=
  ⟨_, rfl⟩

/-- A sweep that drops old outcomes keeps the others. -/
theorem pruneOld_eq (s : System) :
    ∃ world keep, s.pruneOld = (s.withWorld world).keeping keep ∧ s.world.Untouched world := by
  obtain ⟨keep, hkeep⟩ := prune_eq s s.settings.maxRunAge
  unfold System.pruneOld
  rcases hprune : s.prune s.settings.maxRunAge with ⟨_ | count, pruned⟩
  -- Whether the log tells of it depends on how many were pruned; what is kept does not.
  all_goals
    rw [hprune] at hkeep
    dsimp only at hkeep ⊢
    rw [hkeep]
  · exact ⟨s.world, keep, rfl, untouched_refl s.world⟩
  · exact ⟨s.world.logged [.outcomesPruned (count + 1)], keep, rfl, rfl, rfl, rfl, rfl⟩

/-- What comes of a task's turn. -/
theorem turn_stepTask (m : Machine) (number : Nat) :
    Turn executor m (.task number) (m.taskDeed? number) (m.stepTask number) := by
  unfold taskDeed? stepTask
  cases hthere : m.system.tasks[number]? with
  | none => exact .refl m _
  | some task =>
    cases hstate : task.state with
    | running wait resume =>
      simp only [hstate]
      -- The run goes on if what it waits for is over, and then either waits again or returns.
      by_cases hover : World.isOver wait m.system.world = true
      · rw [if_pos hover, if_pos hover]
        cases hstretch : resume m.system.world with
        | waiting world wait' resume' => exact .ran hthere hstate hstretch
        | ended world result => exact .finished hthere hstate hstretch
      · rw [if_neg hover, if_neg hover]
        exact .refl m _
    -- The pieces of wrapping up come one after the other. Only the last one needs the table.
    | storing outcome =>
      simp only [hstate, System.wrapUp]
      exact .stored hthere hstate
    | unflagging =>
      simp only [hstate, System.wrapUp]
      exact .unflagged hthere hstate
    | leaving =>
      simp only [hstate, System.wrapUp]
      by_cases hfree : m.holder = none
      · rw [if_pos (Option.isNone_iff_eq_none.mpr hfree)]
        exact .left hthere hstate hfree
      · rw [if_neg (mt Option.isNone_iff_eq_none.mp hfree)]
        exact .refl m _
    -- A task that is over does nothing with its turn.
    | ended | aborted =>
      simp only [hstate, System.wrapUp]
      exact .refl m _

/-- A run is not active when the table has nothing under its id. -/
theorem isActive_eq_false_iff {s : System} {run : String} :
    s.isActive run = false ↔ s.active.get? run = none :=
  Option.isSome_eq_false_iff.trans Option.isNone_iff_eq_none

/-- A run is active when the table has a task under its id. -/
theorem isActive_iff {s : System} {run : String} :
    s.isActive run = true ↔ ∃ task, s.active.get? run = some task :=
  Option.isSome_iff_exists

/-- What comes of the turn of a call that starts a run. -/
theorem turn_stepStart {number : Nat} {state : CallState} (hthere : m.calls[number]? = some state)
    (hstart : (∃ input, state = .starting input) ∨ ∃ input, state = .listing input) :
    Turn executor m (.call number) (m.callDeed? number) (m.stepStart executor number state) := by
  unfold callDeed? stepStart
  rw [hthere]
  rcases hstart with ⟨input, rfl⟩ | ⟨input, rfl⟩
  · dsimp only
    -- While the table is held the call waits on, and its turn changes nothing.
    by_cases hheld : m.holder.isSome = true
    · rw [if_pos hheld]
      exact .refl m _
    · have hfree : m.holder = none := Option.not_isSome_iff_eq_none.mp hheld
      rw [if_neg hheld]
      -- A run whose id is active is refused, and otherwise the table is held from here on.
      cases hactive : m.system.isActive input.run with
      | true => exact .refused hthere
      | false => exact .listed hthere hfree (isActive_eq_false_iff.mp hactive)
  · exact .started hthere

/-- What comes of the turn of a call that waits for a run. -/
theorem turn_stepWait {number : Nat} {state : CallState} (hthere : m.calls[number]? = some state)
    (hwait : (∃ run seen, state = .watching run seen) ∨ (∃ run seen, state = .sleeping run seen) ∨
      ∃ run, state = .collecting run) :
    Turn executor m (.call number) (m.callDeed? number) (m.stepWait number state) := by
  unfold callDeed? stepWait
  rw [hthere]
  rcases hwait with ⟨run, seen, rfl⟩ | ⟨run, seen, rfl⟩ | ⟨run, rfl⟩
  · dsimp only
    by_cases hheld : m.holder.isSome = true
    · rw [if_pos hheld]
      exact .refl m _
    · rw [if_neg hheld]
      -- Whether the run is active decides between sleeping and collecting.
      cases hactive : m.system.isActive run with
      | true =>
        obtain ⟨task, hpresent⟩ := isActive_iff.mp hactive
        exact .slept hthere hpresent
      | false => exact .noticed hthere (isActive_eq_false_iff.mp hactive)
  · dsimp only
    -- An ending after the one last seen wakes the call.
    by_cases hseen : seen < m.system.endings
    · rw [if_pos hseen]
      exact .woken hthere
    · rw [if_neg hseen]
      exact .refl m _
  · exact .collected hthere

/-- What comes of the turn of a call for a shutdown. -/
theorem turn_stepShutdown {number : Nat} {state : CallState}
    (hthere : m.calls[number]? = some state)
    (hshutdown : state = .closing ∨ (∃ aborted, state = .joining aborted) ∨
      (∃ runs, state = .discarding runs) ∨ ∃ run rest, state = .unflagging run rest) :
    Turn executor m (.call number) (m.callDeed? number) (m.stepShutdown number state) := by
  unfold callDeed? stepShutdown
  rw [hthere]
  rcases hshutdown with rfl | ⟨aborted, rfl⟩ | ⟨runs, rfl⟩ | ⟨run, rest, rfl⟩
  · dsimp only
    by_cases hheld : m.holder.isSome = true
    · rw [if_pos hheld]
      exact .refl m _
    · rw [if_neg hheld]
      exact .aborted hthere (Option.not_isSome_iff_eq_none.mp hheld)
  · dsimp only
    -- The call waits for all the tasks that it has aborted.
    by_cases hover : (aborted.all fun e => m.isTaskOver e.2) = true
    · rw [if_pos hover]
      exact .joined hthere
    · rw [if_neg hover]
      exact .refl m _
  · -- One run after another: its context is discarded, and then its flag removed.
    cases runs with
    | nil => exact .closed hthere
    | cons run rest => exact .discarded hthere
  · exact .stripped hthere

/-- What comes of the turn of a sweep. -/
theorem turn_stepSweep {number : Nat} {state : CallState} (hthere : m.calls[number]? = some state)
    (hsweep : state = .sweeping ∨ (∃ now, state = .expiring now) ∨ state = .pruning) :
    Turn executor m (.call number) (m.callDeed? number) (m.stepSweep number state) := by
  unfold callDeed? stepSweep
  rw [hthere]
  rcases hsweep with rfl | ⟨now, rfl⟩ | rfl
  · -- A sweep reads the calendar, discards contexts, and prunes, with other turns between these.
    have hcalendar : m.system.world.Untouched
        { m.system.world with calendar := m.system.world.calendar + 1 } := ⟨rfl, rfl, rfl, rfl⟩
    exact .read hthere hcalendar
  · -- Contexts are discarded from the world alone, so its tables are untouched.
    obtain ⟨world, hworld, hsame⟩ := expireAt_eq m.system now
    dsimp only
    rw [hworld]
    exact .expired hthere hsame
  · obtain ⟨world, keep, hkeep, hsame⟩ := pruneOld_eq m.system
    dsimp only
    rw [hkeep]
    exact .swept hthere hsame keep

/-- A piece of other work changes the call and the world. -/
theorem worked_eq (m : Machine) (number : Nat) (p : Paused World BindingError Unit) :
    m.worked number p = m.goOn number (.ofPaused p) (m.system.withWorld p.state) := by
  cases p with
  | waiting _ _ _ | ended _ _ => rfl

/-- What comes of the turn of a call. -/
theorem turn_stepCall (m : Machine) (number : Nat) :
    Turn executor m (.call number) (m.callDeed? number) (m.stepCall executor number) := by
  unfold stepCall
  cases hthere : m.calls[number]? with
  | none =>
    unfold callDeed?
    rw [hthere]
    exact .refl m _
  | some state =>
    -- Each call is dealt with by what it does, and one that has returned does nothing with its
    -- turn.
    cases state with
    | starting input => exact turn_stepStart hthere (.inl ⟨input, rfl⟩)
    | listing input => exact turn_stepStart hthere (.inr ⟨input, rfl⟩)
    | watching run seen => exact turn_stepWait hthere (.inl ⟨run, seen, rfl⟩)
    | sleeping run seen => exact turn_stepWait hthere (.inr (.inl ⟨run, seen, rfl⟩))
    | collecting run => exact turn_stepWait hthere (.inr (.inr ⟨run, rfl⟩))
    | closing => exact turn_stepShutdown hthere (.inl rfl)
    | joining aborted => exact turn_stepShutdown hthere (.inr (.inl ⟨aborted, rfl⟩))
    | discarding runs => exact turn_stepShutdown hthere (.inr (.inr (.inl ⟨runs, rfl⟩)))
    | unflagging run rest => exact turn_stepShutdown hthere (.inr (.inr (.inr ⟨run, rest, rfl⟩)))
    | sweeping => exact turn_stepSweep hthere (.inl rfl)
    | expiring now => exact turn_stepSweep hthere (.inr (.inl ⟨now, rfl⟩))
    | pruning => exact turn_stepSweep hthere (.inr (.inr rfl))
    | working wait resume =>
      unfold callDeed?
      rw [hthere]
      dsimp only
      by_cases hover : World.isOver wait m.system.world = true
      · rw [if_pos hover]
        rw [worked_eq]
        exact .worked hthere
      · rw [if_neg hover]
        exact .refl m _
    | started _ | refused _ | collected _ _ | closed | swept | worked _ =>
      unfold callDeed?
      rw [hthere]
      exact .refl m _

/-- A call that is added and put into another state at once is added in that state. -/
theorem addCall_goOn (m : Machine) (first state : CallState) (system : System) :
    (m.addCall first).goOn m.calls.length state system =
      { m with system := system }.addCall state := by
  unfold addCall goOn
  simp only [List.set_append_right _ _ (Nat.le_refl _), Nat.sub_self, List.set_cons_zero]

/-- What comes of a move. -/
theorem turn_step (executor : Executor) (m : Machine) (move : Move) :
    Turn executor m move (m.deed? move) (m.step executor move) := by
  have hlogged : ∀ events, m.system.world.Untouched (m.system.world.logged events) :=
    fun _ => ⟨rfl, rfl, rfl, rfl⟩
  -- Every move is a turn of its own kind: the calls begin, a request to stop finds a flag or not,
  -- and a task or a call goes on by one piece.
  cases move with
  | start input => exact .called (hlogged _) _ (.inr (.inr ⟨input, rfl⟩)) rfl
  | wait run => exact .awaited run
  | shutdown => exact .called (hlogged _) _ (.inl rfl) rfl
  | sweep => exact .called (untouched_refl m.system.world) _ (.inr (.inl rfl)) rfl
  | work program =>
    show Turn executor m _ none ((m.addCall .swept).worked m.calls.length _)
    rw [worked_eq, addCall_goOn]
    exact .began program
  | cancel run =>
    unfold step System.cancel
    dsimp only
    -- Without a flag for the run a request to stop is heard by nobody.
    cases hsignal : (m.system.logged (.cancelling run)).signals.get? run with
    | none => exact .still _ (hlogged _)
    | some flag => exact .raised hsignal ⟨rfl, rfl, rfl, rfl⟩
  | prune maxAge =>
    obtain ⟨keep, hkeep⟩ := prune_eq m.system maxAge
    unfold step
    dsimp only
    rw [hkeep]
    exact .pruned maxAge keep
  | task number => exact turn_stepTask m number
  | call number => exact turn_stepCall m number
  | tick count => exact .still _ ⟨rfl, rfl, rfl, rfl⟩

end Machine

end RunParams
