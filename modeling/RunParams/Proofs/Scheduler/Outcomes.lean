import RunParams.Lookup.Memory
import RunParams.Proofs.Scheduler.Deeds
import RunParams.Proofs.Scheduler.Tables

/-!
# What becomes of outcomes

A task stores the outcome of its run under the run id, and a call that waits for the run takes it
away. `Chronicle` is a machine together with the deeds of all moves so far, the latest first, which
tell what was started and stored last and what the calls to wait have returned.

`Chronicle.Accounts` says what holds then, as long as nobody drops outcomes or shuts down: no
outcome is lost and none is returned twice. A wait that returns an outcome returns the one that was
stored last, and no other wait has returned it. Once the last run with an id is not active any more,
its outcome is there until a wait collects it; so a wait that was called after a run had been
started comes back empty only if another wait has collected what was stored last.

What the table of outcomes holds is told by the deeds alone (`standing`): the proof shows this
together with what the deeds tell of each task (`Recorded`) and of each call.
-/

namespace RunParams

/-- A machine and the deeds of the moves so far, the latest first. -/
structure Chronicle where
  machine : Machine
  deeds : List Deed

namespace Chronicle

/-- A scheduler without runs and calls. -/
def start (settings : RunnerSettings) (world : World) : Chronicle := ⟨.ofWorld settings world, []⟩

/-- What comes of a move. -/
def move (executor : Executor) (c : Chronicle) (m : Move) : Chronicle :=
  ⟨c.machine.step executor m, (c.machine.deed? m).toList ++ c.deeds⟩

/-- What comes of some moves. -/
def run (executor : Executor) (c : Chronicle) (moves : List Move) : Chronicle :=
  moves.foldl (move executor) c

/-- A chronicle follows the machine. -/
theorem machine_run (executor : Executor) (c : Chronicle) (moves : List Move) :
    (c.run executor moves).machine = c.machine.run executor moves := by
  induction moves generalizing c with
  | nil => rfl
  | cons m rest ih => exact ih (c.move executor m)

/-- No outcome is lost and none is returned twice. -/
structure Accounts (c : Chronicle) : Prop where
  /-- Every run that was started and every wait that has returned is among the deeds. -/
  started : ∀ (number : Nat) task, c.machine.system.tasks[number]? = some task →
    .started number task.run ∈ c.deeds
  returned : ∀ (call : Nat) run outcome,
    c.machine.calls[call]? = some (.collected run outcome) → .collected call run outcome ∈ c.deeds
  coherent : Coherent c.deeds
  /-- Of two waits that return an outcome of a run, the later one returns an outcome that was stored
  in between. -/
  once : ∀ later call run outcome between call' outcome' earlier,
    c.deeds = later ++ .collected call run (some outcome) ::
      (between ++ .collected call' run (some outcome') :: earlier) →
    ∃ task, .stored task run outcome ∈ between
  /-- When the last run with an id is not active any more, it has ended, its outcome was stored
  last, and it is there unless a wait has returned it. -/
  kept : ∀ run task, lastStarted run c.deeds = some task →
    c.machine.system.isActive run = false →
    ∃ outcome since, .finished task outcome ∈ c.deeds ∧
      StoredLast run task outcome since c.deeds ∧
      (Uncollected run since → c.machine.system.outcome? run = some outcome)

variable {executor : Executor} {m m' : Machine} {move : Move} {run : String}
  {task number : Nat} {outcome : Outcome} {since deeds : List Deed} {d : Deed}

/-! ## What the deeds tell of tasks -/

/-- What the deeds tell of a task. -/
structure Recorded (deeds : List Deed) (number : Nat) (task : Task) : Prop where
  started : .started number task.run ∈ deeds
  unharmed : task.state ≠ .aborted
  finished : ∀ outcome, task.state = .storing outcome → .finished number outcome ∈ deeds
  /-- The outcome of the last run with an id is the one that was stored last, once it is stored. -/
  stored : task.state.hasStored = true → lastStarted task.run deeds = some number →
    ∃ outcome since, .finished number outcome ∈ deeds ∧
      StoredLast task.run number outcome since deeds

/-- The deeds tell of all tasks, and who is active was started last. -/
structure TasksRecorded (s : System) (deeds : List Deed) : Prop where
  recorded : ∀ (number : Nat) task, s.tasks[number]? = some task → Recorded deeds number task
  known : ∀ run number, lastStarted run deeds = some number →
    ∃ task, s.tasks[number]? = some task ∧ task.run = run
  latest : ∀ run number, s.active.get? run = some number → lastStarted run deeds = some number

/-- What is told of a task remains so when nothing is stored for its run, unless another one has
been started since, and when the task is not started anew. -/
theorem Recorded.cons {t : Task} (h : Recorded deeds number t)
    (hstored : ∀ other result, d = .stored other t.run result →
      lastStarted t.run deeds ≠ some number)
    (hstarted : d ≠ .started number t.run) : Recorded (d :: deeds) number t := by
  refine ⟨List.mem_cons_of_mem d h.started, h.unharmed, fun outcome hstate => ?_,
    fun hstate hlast => ?_⟩
  · exact List.mem_cons_of_mem d (h.finished outcome hstate)
  · have hbefore : lastStarted t.run deeds = some number :=
      (lastStarted_cons hlast).resolve_left hstarted
    obtain ⟨outcome, since, hfinished, hstoredLast⟩ := h.stored hstate hbefore
    refine ⟨outcome, d :: since, List.mem_cons_of_mem d hfinished, hstoredLast.cons ?_⟩
    exact fun other result hd => hstored other result hd hbefore

/-- What is told of a task that has not stored its outcome, when it goes on. -/
theorem Recorded.goOn {t : Task} (h : Recorded deeds number t) {state : TaskState}
    (hunharmed : state ≠ .aborted)
    (hfinished : ∀ outcome, state = .storing outcome → .finished number outcome ∈ deeds)
    (hstored : state.hasStored = true → t.state.hasStored = true) :
    Recorded deeds number { t with state } :=
  ⟨h.started, hunharmed, hfinished, fun hstate hlast => h.stored (hstored hstate) hlast⟩

variable {s s' : System}

/-- Only tasks and active runs matter. -/
theorem TasksRecorded.congr (h : TasksRecorded s deeds) (htasks : s'.tasks = s.tasks)
    (hactive : s'.active = s.active) : TasksRecorded s' deeds := by
  refine ⟨fun number t ht => ?_, fun run number hlast => ?_, fun run number hrun => ?_⟩
  · rw [htasks] at ht
    exact h.recorded number t ht
  · rw [htasks]
    exact h.known run number hlast
  · rw [hactive] at hrun
    exact h.latest run number hrun

/-- The deeds tell of all tasks when they tell of one that goes on and of the others. -/
theorem TasksRecorded.setTask (h : TasksRecorded s deeds) {deeds' : List Deed} {t : Task}
    {state : TaskState} (hthere : s.tasks[number]? = some t)
    (hown : Recorded deeds' number { t with state })
    (hothers : ∀ other t', other ≠ number → s.tasks[other]? = some t' →
      Recorded deeds' other t')
    (hlast : ∀ run, lastStarted run deeds' = lastStarted run deeds) :
    TasksRecorded (s.setTask number state) deeds' := by
  -- The deeds tell of the task itself by assumption, and of the others as they did; only the state
  -- of one task is another, so who was started last is so still.
  refine ⟨fun other t' ht' => ?_, fun run other hlast' => ?_, fun run other hrun => ?_⟩
  · rcases System.task_of_setTask hthere ht' with ⟨rfl, rfl⟩ | ⟨hother, ht'⟩
    · exact hown
    · exact hothers other t' hother ht'
  · rw [hlast] at hlast'
    obtain ⟨t', ht', hrun⟩ := h.known run other hlast'
    rw [System.getElem?_setTask]
    -- The task that changes keeps its run.
    by_cases hother : other = number
    · subst hother
      rw [hthere] at ht'
      cases ht'
      rw [if_pos rfl, hthere]
      exact ⟨_, rfl, hrun⟩
    · rw [if_neg hother]
      exact ⟨t', ht', hrun⟩
  · rw [hlast]
    exact h.latest run other hrun

/-- Nothing that tasks do, and no start, is told by the deeds of calls. -/
theorem TasksRecorded.cons (h : TasksRecorded s deeds)
    (hstored : ∀ other run result, d ≠ .stored other run result)
    (hstarted : ∀ other run, d ≠ .started other run) : TasksRecorded s (d :: deeds) := by
  refine ⟨fun number t ht => ?_, fun run number hlast => ?_, fun run number hrun => ?_⟩
  · exact (h.recorded number t ht).cons (fun _ _ hd => absurd hd (hstored _ _ _)) (hstarted _ _)
  · exact h.known run number ((lastStarted_cons hlast).resolve_left (hstarted _ _))
  · have hlast := h.latest run number hrun
    cases d with
    | started _ _ => exact absurd rfl (hstarted _ _)
    | finished _ _ | stored _ _ _ | awaited _ _ | collected _ _ _ => exact hlast

/-- The deeds tell of all tasks when another run is started. -/
theorem TasksRecorded.enlist (h : TasksRecorded s deeds) (input : RunInput) :
    TasksRecorded (s.enlist executor input) (.started s.tasks.length input.run :: deeds) := by
  -- The new task has done nothing but start, and is now the last one of its run.
  refine ⟨fun number t ht => ?_, fun run number hlast => ?_, fun run number hrun => ?_⟩
  · rcases System.task_of_enlist ht with ⟨rfl, rfl⟩ | ⟨hused, ht⟩
    · exact ⟨List.mem_cons_self, nofun, fun _ => nofun, nofun⟩
    · refine (h.recorded number t ht).cons (fun _ _ => nofun) fun hd => ?_
      exact Nat.ne_of_lt hused (Deed.started.inj hd).1.symm
  · -- The task that was started last is the new one, or the run is another one.
    rw [System.getElem?_enlist]
    rw [lastStarted] at hlast
    by_cases hrun : run = input.run
    · rw [if_pos hrun] at hlast
      cases hlast
      exact ⟨_, if_pos rfl, hrun.symm⟩
    · rw [if_neg hrun] at hlast
      obtain ⟨t, ht, htrun⟩ := h.known run number hlast
      have hused : number < s.tasks.length := (List.getElem?_eq_some_iff.mp ht).1
      rw [if_neg (by omega)]
      exact ⟨t, ht, htrun⟩
  · have hactive : (s.enlist executor input).active.get? run =
        if run = input.run then some s.tasks.length else s.active.get? run :=
      KeyMap.get?_insert s.active input.run run s.tasks.length
    -- The run has just become active with the new task, or it is another run.
    rw [hactive] at hrun
    rw [lastStarted]
    by_cases hsame : run = input.run
    · rw [if_pos hsame] at hrun ⊢
      exact hrun
    · rw [if_neg hsame] at hrun ⊢
      exact h.latest run number hrun

/-- No call shuts down or sweeps. -/
def Untidied (m : Machine) : Prop :=
  ∀ (number : Nat) state, m.calls[number]? = some state → state.tidiesUp = false

/-- Every turn, when no call shuts down, leaves all tasks told by the deeds. -/
theorem TasksRecorded.turn {done : Option Deed} (hturn : m.Turn executor move done m')
    (hsound : m.Sound) (htidy : Untidied m) (h : TasksRecorded m.system deeds) :
    TasksRecorded m'.system (done.toList ++ deeds) := by
  -- A task that goes on to do no deed leaves the others as they are.
  have hsilent : ∀ {s : System} {number : Nat} {t : Task} {state : TaskState},
      TasksRecorded s deeds → s.tasks[number]? = some t → Recorded deeds number { t with state } →
      TasksRecorded (s.setTask number state) deeds := by
    intro s number t state hs ht hown
    exact hs.setTask ht hown (fun other t' _ ht' => hs.recorded other t' ht') fun _ => rfl
  -- What a turn adds to the deeds is told task by task: a task that finishes or stores says so
  -- itself, and what a start or a wait adds concerns no older task.
  cases hturn with
  | still _ _ | raised _ _ | called _ _ _ _ | began _ | pruned _ _ => exact h.congr rfl rfl
  | awaited run =>
    exact h.cons (d := .awaited m.calls.length run) (fun _ _ _ => nofun) fun _ _ => nofun
  | @ran number t there wait resume running world wait' resume' stretch =>
    refine hsilent (s := m.system.withWorld world) (h.congr rfl rfl) there ?_
    exact (h.recorded number t there).goOn nofun (fun _ => nofun) nofun
  -- The outcome that is to be stored from here on is the one that has just been noted.
  | @finished number t there wait resume running world result stretch =>
    have hworld : TasksRecorded (m.system.withWorld world) deeds := h.congr rfl rfl
    have hcons : TasksRecorded (m.system.withWorld world)
        (.finished number (.ofResult result) :: deeds) :=
      hworld.cons (fun _ _ _ => nofun) fun _ _ => nofun
    refine hcons.setTask there ?_ (fun other t' _ ht' => hcons.recorded other t' ht') fun _ => rfl
    refine (hcons.recorded number t there).goOn nofun (fun result hstate => ?_) nofun
    cases hstate
    exact List.mem_cons_self
  | @stored number t outcome there storing =>
    have hover : t.state.isOver = false := by rw [storing]; rfl
    -- Who stores is active, and so the one of its run that was started last.
    have hlast : lastStarted t.run deeds = some number :=
      h.latest t.run number (hsound.paired.present number t there hover)
    have hfinished : .finished number outcome ∈ deeds :=
      (h.recorded number t there).finished outcome storing
    refine TasksRecorded.setTask (s := m.system.store t.run outcome) (h.congr rfl rfl) there ?_ ?_
      -- The table of outcomes is no matter of this invariant, so the task alone is looked at.
      fun _ => rfl
    · refine ⟨List.mem_cons_of_mem _ (h.recorded number t there).started, nofun, fun _ => nofun,
        fun _ _ => ?_⟩
      exact ⟨outcome, [], List.mem_cons_of_mem _ hfinished,
        storedLast_now t.run number outcome deeds⟩
    · -- Another task may have stored an outcome of the same run, but it is not the last one of the
      -- run that was started, and only of that one it is claimed that nobody stored after it.
      intro other t' hother ht'
      refine (h.recorded other t' ht').cons (fun _ _ hd => ?_) nofun
      have hrun : t.run = t'.run := (Deed.stored.inj hd).2.1
      rw [← hrun, hlast]
      exact fun hsame => hother (Option.some.inj hsame).symm
  | @unflagged number t there unflagging =>
    refine hsilent (s := m.system.unflag t.run) (h.congr rfl rfl) there ?_
    refine (h.recorded number t there).goOn nofun (fun _ => nofun) fun _ => ?_
    rw [unflagging]
    rfl
  -- The run is active no more, so less has to be shown of the table of active runs.
  | @left number t there leaving free =>
    have hactive : TasksRecorded (m.system.leave t.run) deeds := by
      refine ⟨h.recorded, h.known, fun run other hrun => h.latest run other ?_⟩
      change (m.system.active.erase t.run).get? run = some other at hrun
      rw [KeyMap.get?_erase] at hrun
      by_cases hsame : run = t.run
      · rw [if_pos hsame] at hrun
        cases hrun
      · rwa [if_neg hsame] at hrun
    refine hsilent hactive there ?_
    refine (h.recorded number t there).goOn nofun (fun _ => nofun) fun _ => ?_
    rw [leaving]
    rfl
  | refused there => exact h
  | listed there free absent => exact h
  | @started number input there => exact h.enlist input
  | slept there present => exact h
  | noticed there absent => exact h
  | woken there => exact h
  | @collected number run there =>
    have hcollect : TasksRecorded (m.system.collect run).2 deeds := h.congr rfl rfl
    exact hcollect.cons (d := .collected number run (m.system.outcome? run))
      (fun _ _ _ => nofun) fun _ _ => nofun
  -- Nobody shuts down or sweeps here, so nobody aborts.
  | aborted there free => exact absurd (htidy _ _ there) nofun
  | joined _ | discarded _ | stripped _ | closed _ | read _ _ | expired _ _ | worked _
  | swept _ _ _ =>
    exact h.congr rfl rfl

/-! ## What the deeds tell of calls -/

/-- A call that stands aside, or is about to start a run, has nothing to do with outcomes. -/
theorem ne_collecting_of_aside {state : CallState}
    (h : state.isAside = true ∨ ∃ input, state = .starting input) :
    (∀ run, state ≠ .collecting run) ∧ ∀ run outcome, state ≠ .collected run outcome := by
  refine ⟨fun run hstate => ?_, fun run outcome hstate => ?_⟩
  all_goals
    rcases h with haside | ⟨input, hinput⟩
    · rw [hstate] at haside
      cases haside
    · rw [hstate] at hinput
      cases hinput

/-- When nobody shuts down or sweeps, nobody begins to, unless a move calls for it. -/
theorem Untidied.turn {done : Option Deed} (hturn : m.Turn executor move done m')
    (hmove : move.tidiesUp = false) (h : Untidied m) : Untidied m' := by
  cases hturn with
  | still _ _ | raised _ _ | ran _ _ _ | finished _ _ _ | stored _ _ | unflagged _ _ | left _ _ _
  | pruned _ _ => exact h
  | called same state new kind => exact Machine.forall_call_addCall h (kind.trans hmove)
  | began program => exact Machine.forall_call_addCall h (CallState.tidiesUp_ofPaused _)
  | awaited run => exact Machine.forall_call_addCall h rfl
  | refused there | slept there _ | noticed there _ | woken there | collected there
  | listed there _ _ | started there => exact Machine.forall_call_goOn h there rfl
  | worked there => exact Machine.forall_call_goOn h there (CallState.tidiesUp_ofPaused _)
  | aborted there _ | joined there | discarded there | stripped there | closed there
  | read there _ | expired there _ | swept there _ _ => exact absurd (h _ _ there) nofun

/-- What the deeds tell of calls. -/
structure CallsRecorded (calls : List CallState) (deeds : List Deed) : Prop where
  /-- Who is about to collect the outcome of a run, and has called when the run had been started,
  comes after an outcome was stored. -/
  collecting : ∀ (call : Nat) run, calls[call]? = some (.collecting run) →
    CalledAfterStart call run deeds →
    ∃ task outcome since, StoredLast run task outcome since deeds
  returned : ∀ (call : Nat) run outcome,
    calls[call]? = some (.collected run outcome) ↔ .collected call run outcome ∈ deeds

variable {calls : List CallState} {old state : CallState}

/-- The deeds tell of calls as before when nobody else calls to wait, and nobody returns. -/
theorem CallsRecorded.cons (h : CallsRecorded calls deeds)
    (hawaited : ∀ call run, d = .awaited call run → call = calls.length)
    (hcollected : ∀ call run result, d ≠ .collected call run result) :
    CallsRecorded calls (d :: deeds) := by
  refine ⟨fun call run hcall hafter => ?_, fun call run outcome => ?_⟩
  · have hused : call < calls.length := (List.getElem?_eq_some_iff.mp hcall).1
    rcases hafter.of_cons with hnow | hafter
    · have hnew := hawaited call run hnow
      omega
    · obtain ⟨task, outcome, since, hlast⟩ := h.collecting call run hcall hafter
      exact hlast.exists_cons d
  · rw [h.returned, List.mem_cons]
    exact ⟨.inr, fun hmem => hmem.resolve_left (hcollected call run outcome).symm⟩

/-- The deeds tell of calls as before when another one is added that returns nothing yet. -/
theorem CallsRecorded.addCall (h : CallsRecorded calls deeds)
    (hnew : (∀ run, state ≠ .collecting run) ∧ ∀ run outcome, state ≠ .collected run outcome) :
    CallsRecorded (calls ++ [state]) deeds := by
  -- The new call is at its beginning: it does not collect and has not collected.
  refine ⟨fun call run hcall hafter => ?_, fun call run outcome => ?_⟩
  · rw [getElem?_concat] at hcall
    by_cases hlast : call = calls.length
    · rw [if_pos hlast] at hcall
      exact absurd (Option.some.inj hcall) (hnew.1 run)
    · rw [if_neg hlast] at hcall
      exact h.collecting call run hcall hafter
  · rw [← h.returned, getElem?_concat]
    by_cases hlast : call = calls.length
    · have hnone : calls[call]? = none := List.getElem?_eq_none (by omega)
      rw [if_pos hlast, hnone]
      exact ⟨fun hcall => absurd (Option.some.inj hcall) (hnew.2 run outcome), nofun⟩
    · rw [if_neg hlast]

/-- The deeds tell of calls as before when one goes on that returns nothing yet, nor has returned.
-/
theorem CallsRecorded.goOn (h : CallsRecorded calls deeds) (hthere : calls[number]? = some old)
    (hold : ∀ run outcome, old ≠ .collected run outcome)
    (hnew : ∀ run outcome, state ≠ .collected run outcome)
    (hlook : ∀ run, state = .collecting run → CalledAfterStart number run deeds →
      ∃ task outcome since, StoredLast run task outcome since deeds) :
    CallsRecorded (calls.set number state) deeds := by
  have hused : number < calls.length := (List.getElem?_eq_some_iff.mp hthere).1
  -- Only the call that goes on is looked at anew; a call that collects has found its run inactive.
  refine ⟨fun call run hcall hafter => ?_, fun call run outcome => ?_⟩
  · -- If it is this call that collects now, what it will find has been shown by the caller.
    by_cases hcallNumber : number = call
    · subst hcallNumber
      rw [List.getElem?_set_self hused] at hcall
      exact hlook run (Option.some.inj hcall) hafter
    · rw [List.getElem?_set_ne hcallNumber] at hcall
      exact h.collecting call run hcall hafter
  · rw [← h.returned]
    by_cases hcallNumber : number = call
    · subst hcallNumber
      rw [List.getElem?_set_self hused, hthere]
      exact ⟨fun hcall => absurd (Option.some.inj hcall) (hnew run outcome),
        fun hcall => absurd (Option.some.inj hcall) (hold run outcome)⟩
    · rw [List.getElem?_set_ne hcallNumber]

/-- The deeds tell of the calls when one returns. -/
theorem CallsRecorded.collect (h : CallsRecorded calls deeds)
    (hthere : calls[number]? = some (.collecting run)) (result : Option Outcome) :
    CallsRecorded (calls.set number (.collected run result))
      (.collected number run result :: deeds) := by
  have hused : number < calls.length := (List.getElem?_eq_some_iff.mp hthere).1
  -- The call that collects has returned with this deed, and the others are as they were.
  refine ⟨fun call run' hcall hafter => ?_, fun call run' outcome => ?_⟩
  · have hcallNumber : number ≠ call := by
      rintro rfl
      rw [List.getElem?_set_self hused] at hcall
      cases hcall
    rw [List.getElem?_set_ne hcallNumber] at hcall
    obtain ⟨task, outcome, since, hlast⟩ :=
      h.collecting call run' hcall (hafter.of_cons.resolve_left nofun)
    exact hlast.exists_cons _
  · -- A call has returned what the deeds say: this one by the new deed, the others as before.
    rw [List.mem_cons, ← h.returned]
    by_cases hcallNumber : number = call
    · subst hcallNumber
      rw [List.getElem?_set_self hused, hthere]
      constructor
      · intro hcall
        cases hcall
        exact .inl rfl
      · rintro (hsame | hcall)
        · cases hsame
          rfl
        · cases hcall
    · rw [List.getElem?_set_ne hcallNumber]
      refine ⟨.inr, fun h => h.resolve_left fun hsame => ?_⟩
      exact hcallNumber (Deed.collected.inj hsame).1.symm

/-- When a run that was started is not active, an outcome of it has been stored. -/
theorem TasksRecorded.exists_storedLast (h : TasksRecorded s deeds) (hpaired : s.Paired)
    (hlast : lastStarted run deeds = some number) (habsent : s.active.get? run = none) :
    ∃ outcome since, .finished number outcome ∈ deeds ∧
      StoredLast run number outcome since deeds := by
  obtain ⟨t, ht, rfl⟩ := h.known run number hlast
  have hrecorded := h.recorded number t ht
  -- The task is not active any more, so it is over, and as nobody aborts, it has stored its
  -- outcome.
  have hover : t.state.isOver ≠ false := by
    intro hover
    rw [hpaired.present number t ht hover] at habsent
    cases habsent
  have hstored : t.state.hasStored = true := by
    cases hstate : t.state with
    | ended => rfl
    | aborted => exact absurd hstate hrecorded.unharmed
    | running _ _ | storing _ | unflagging | leaving =>
      rw [hstate] at hover
      exact absurd rfl hover
  exact hrecorded.stored hstored hlast

/-- Every turn, when no call shuts down, leaves all calls told by the deeds. -/
theorem CallsRecorded.turn {done : Option Deed} (hturn : m.Turn executor move done m')
    (hsound : m.Sound) (htidy : Untidied m) (htasks : TasksRecorded m.system deeds)
    (h : CallsRecorded m.calls deeds) : CallsRecorded m'.calls (done.toList ++ deeds) := by
  -- Only a wait that notices that its run is over has to be followed: it is then that it collects.
  cases hturn with
  | still _ _ | raised _ _ | ran _ _ _ | unflagged _ _ | left _ _ _ | pruned _ _ => exact h
  | finished _ _ _ | stored _ _ => exact h.cons (fun _ _ => nofun) fun _ _ _ => nofun
  | called same state new kind =>
    rcases new with rfl | rfl | ⟨input, rfl⟩
    · exact h.addCall (ne_collecting_of_aside (.inl rfl))
    · exact h.addCall (ne_collecting_of_aside (.inl rfl))
    · exact h.addCall (ne_collecting_of_aside (.inr ⟨input, rfl⟩))
  | began program =>
    exact h.addCall (ne_collecting_of_aside (.inl (CallState.isAside_ofPaused _)))
  | awaited run =>
    have hcons : CallsRecorded m.calls (.awaited m.calls.length run :: deeds) := by
      refine h.cons (fun call run' hd => ?_) fun _ _ _ => nofun
      exact (Deed.awaited.inj hd).1.symm
    exact hcons.addCall ⟨fun _ => nofun, fun _ _ => nofun⟩
  | refused there | slept there _ | woken there | listed there _ _ =>
    exact h.goOn there (fun _ _ => nofun) (fun _ _ => nofun) fun _ => nofun
  | @started number input there =>
    have hcons : CallsRecorded m.calls (.started m.system.tasks.length input.run :: deeds) :=
      h.cons (fun _ _ => nofun) fun _ _ _ => nofun
    exact hcons.goOn there (fun _ _ => nofun) (fun _ _ => nofun) fun _ => nofun
  -- The run is not active, and it was started before the wait was called. So its last task has
  -- stored an outcome, and nobody has stored one for the run since.
  | noticed there absent =>
    refine h.goOn there (fun _ _ => nofun) (fun _ _ => nofun) fun run' hstate hafter => ?_
    cases hstate
    obtain ⟨task, hstarted⟩ := hafter.exists_started
    obtain ⟨last, hlast⟩ := exists_lastStarted hstarted
    obtain ⟨outcome, since, -, hstored⟩ := htasks.exists_storedLast hsound.paired hlast absent
    exact ⟨last, outcome, since, hstored⟩
  | collected there => exact h.collect there _
  | @worked number wait resume there =>
    have hnew := ne_collecting_of_aside
      (.inl (CallState.isAside_ofPaused (resume m.system.world)))
    exact h.goOn there (fun _ _ => nofun) hnew.2 fun run hstate => absurd hstate (hnew.1 run)
  | aborted there _ | joined there | discarded there | stripped there | closed there
  | read there _ | expired there _ | swept there _ _ => exact absurd (htidy _ _ there) nofun

/-! ## The table of outcomes -/

/-- The deeds tell what the table of outcomes holds, and all of them were lawful. -/
structure Settled (s : System) (deeds : List Deed) : Prop where
  held : ∀ run, s.outcome? run = standing run deeds
  agrees : Agrees deeds
  coherent : Coherent deeds

/-- Nothing changes in the table of outcomes when nothing is stored or collected. -/
theorem Settled.cons (h : Settled s deeds) (houtcomes : s'.outcomes = s.outcomes)
    (hstored : ∀ task run outcome, d ≠ .stored task run outcome)
    (hcollected : ∀ call run outcome, d ≠ .collected call run outcome) :
    Settled s' (d :: deeds) := by
  -- Deeds other than storing and collecting leave what stands as it was.
  have hstanding : ∀ run, standing run (d :: deeds) = standing run deeds := by
    intro run
    cases d with
    | stored _ _ _ => exact absurd rfl (hstored _ _ _)
    | collected _ _ _ => exact absurd rfl (hcollected _ _ _)
    | started _ _ | finished _ _ | awaited _ _ => rfl
  refine ⟨fun run => ?_, ⟨fun call run result hd => ?_, h.agrees⟩, ?_, h.coherent⟩
  · rw [hstanding, ← h.held]
    exact congrArg (fun outcomes => (KeyMap.get? outcomes run).map Ending.outcome) houtcomes
  · exact absurd hd (hcollected call run result)
  · cases d with
    | collected _ _ _ => exact absurd rfl (hcollected _ _ _)
    | started _ _ | finished _ _ | stored _ _ _ | awaited _ _ => trivial

/-- Nothing changes in the table of outcomes when nothing is done. -/
theorem Settled.congr (h : Settled s deeds) (houtcomes : s'.outcomes = s.outcomes) :
    Settled s' deeds := by
  refine ⟨fun run => ?_, h.agrees, h.coherent⟩
  rw [← h.held]
  exact congrArg (fun outcomes => (KeyMap.get? outcomes run).map Ending.outcome) houtcomes

/-- An outcome that is stored stands. -/
theorem Settled.store (h : Settled s deeds) (number : Nat) (run : String) (outcome : Outcome) :
    Settled (s.store run outcome) (.stored number run outcome :: deeds) := by
  refine ⟨fun other => ?_, ⟨fun _ _ _ => nofun, h.agrees⟩, trivial, h.coherent⟩
  have hget : (s.store run outcome).outcomes.get? other =
      if other = run then some ⟨outcome, s.world.around.clock⟩ else s.outcomes.get? other :=
    KeyMap.get?_insert s.outcomes run other ⟨outcome, s.world.around.clock⟩
  rw [System.outcome?, hget, standing]
  by_cases hother : other = run
  · rw [if_pos hother, if_pos hother]
    rfl
  · rw [if_neg hother, if_neg hother]
    exact h.held other

/-- An outcome that is collected does not stand any more. -/
theorem Settled.collect (h : Settled s deeds)
    (hcollecting : CalledAfterStart number run deeds →
      ∃ task outcome since, StoredLast run task outcome since deeds)
    (hfirst : ∀ result, .collected number run result ∉ deeds) :
    Settled (s.collect run).2 (.collected number run (s.outcome? run) :: deeds) := by
  -- For the run itself nothing stands any more, and for the others what stood before.
  refine ⟨fun other => ?_, ⟨fun call other result hd => ?_, h.agrees⟩, ?_, h.coherent⟩
  · have hget : (s.collect run).2.outcomes.get? other =
        if other = run then none else s.outcomes.get? other :=
      KeyMap.get?_erase s.outcomes run other
    rw [System.outcome?, hget, standing]
    by_cases hother : other = run
    · rw [if_pos hother, if_pos hother]
      rfl
    · rw [if_neg hother, if_neg hother]
      exact h.held other
  · obtain ⟨-, rfl, rfl⟩ := Deed.collected.inj hd
    exact h.held run
  · -- What the wait returns is what was in the table, so it is what stood.
    rw [h.held run]
    exact lawful_collected h.agrees hcollecting hfirst

/-- Every turn, when nobody drops outcomes, leaves the table of outcomes told by the deeds. -/
theorem Settled.turn {done : Option Deed} (hturn : m.Turn executor move done m')
    (hmove : move.tidiesUp = false) (htidy : Untidied m) (hcalls : CallsRecorded m.calls deeds)
    (h : Settled m.system deeds) : Settled m'.system (done.toList ++ deeds) := by
  -- Only storing and collecting touch the table of outcomes, and pruning is not among the moves.
  cases hturn with
  | still _ _ | raised _ _ | called _ _ _ _ | began _ | ran _ _ _ | unflagged _ _ | left _ _ _
  | refused _ | listed _ _ _ | slept _ _ | noticed _ _ | woken _ | worked _ => exact h.congr rfl
  | awaited _ | finished _ _ _ | started _ =>
    exact h.cons rfl (fun _ _ _ => nofun) fun _ _ _ => nofun
  | @stored number t outcome there storing =>
    have hstore := h.store number t.run outcome
    exact hstore.congr rfl
  | collected there =>
    -- A call collects once: when it has returned it does not collect any more.
    refine h.collect (hcalls.collecting _ _ there) fun result hmem => ?_
    have hreturned := (hcalls.returned _ _ result).mpr hmem
    rw [there] at hreturned
    cases hreturned
  | aborted there _ | joined there | discarded there | stripped there | closed there
  | read there _ | expired there _ | swept there _ _ => exact absurd (htidy _ _ there) nofun
  | pruned _ _ => cases hmove

/-! ## Every order of moves -/

/-- What holds after every move when nobody drops outcomes or shuts down. -/
structure Kept (c : Chronicle) : Prop where
  sound : c.machine.Sound
  untidied : Untidied c.machine
  tasks : TasksRecorded c.machine.system c.deeds
  calls : CallsRecorded c.machine.calls c.deeds
  settled : Settled c.machine.system c.deeds

/-- At the beginning nothing has been done. -/
theorem kept_start (settings : RunnerSettings) (world : World) :
    (Chronicle.start settings world).Kept :=
  ⟨Machine.sound_ofWorld settings world, nofun, ⟨nofun, nofun, nofun⟩,
    ⟨nofun, fun _ _ _ => ⟨nofun, nofun⟩⟩, ⟨fun _ => rfl, trivial, trivial⟩⟩

/-- What holds before a move holds after it. -/
theorem Kept.step {c : Chronicle} (h : c.Kept) {move : Move} (hmove : move.tidiesUp = false) :
    (c.move executor move).Kept := by
  have hturn := c.machine.turn_step executor move
  exact ⟨hturn.sound h.sound, h.untidied.turn hturn hmove,
    h.tasks.turn hturn h.sound h.untidied,
    h.calls.turn hturn h.sound h.untidied h.tasks,
    h.settled.turn hturn hmove h.untidied h.calls⟩

/-- What holds at the beginning holds after all moves. -/
theorem Kept.steps {c : Chronicle} (h : c.Kept) {moves : List Move}
    (hmoves : ∀ move ∈ moves, move.tidiesUp = false) : (c.run executor moves).Kept := by
  induction moves generalizing c with
  | nil => exact h
  | cons move rest ih =>
    exact ih (h.step (hmoves move List.mem_cons_self))
      fun later hlater => hmoves later (List.mem_cons_of_mem move hlater)

/-- What holds after every move accounts for the outcomes. -/
theorem Kept.accounts {c : Chronicle} (h : c.Kept) : c.Accounts := by
  refine ⟨fun number t ht => (h.tasks.recorded number t ht).started,
    fun call run outcome hcall => (h.calls.returned call run outcome).mp hcall,
    h.settled.coherent, ?_, ?_⟩
  · -- Between two collections for a run an outcome was stored, as the second one found one.
    intro later call run outcome between call' outcome' earlier hdeeds
    have hcoherent := h.settled.coherent
    rw [hdeeds] at hcoherent
    obtain ⟨task, since, hlast, huncollected⟩ := hcoherent.lawful
    exact ⟨task, hlast.mem_between (huncollected call' outcome')⟩
  · -- The run is over, so its last task has stored an outcome. It stands as long as nobody collects
    -- it.
    intro run task hlast hinactive
    have habsent := Machine.isActive_eq_false_iff.mp hinactive
    obtain ⟨outcome, since, hfinished, hstored⟩ :=
      h.tasks.exists_storedLast h.sound.paired hlast habsent
    refine ⟨outcome, since, hfinished, hstored, fun huncollected => ?_⟩
    rw [h.settled.held run]
    refine (hstored.standing_or_collected h.settled.agrees).resolve_right ?_
    rintro ⟨call, hcall⟩
    exact huncollected call outcome hcall

/-- Whatever the order of starts, waits, turns of tasks and requests to stop runs, while nobody
drops outcomes or shuts down: no outcome is lost, and none is returned twice. -/
theorem outcomes_accounted (executor : Executor) (settings : RunnerSettings) (world : World)
    {moves : List Move} (hmoves : ∀ move ∈ moves, move.tidiesUp = false) :
    ((Chronicle.start settings world).run executor moves).Accounts :=
  ((kept_start settings world).steps hmoves).accounts

/-- A run breaks down and is started anew before the wait for it looks again. That wait returns the
outcome of the second run, and a later one comes back empty. -/
theorem outcomes_accounted_restart :
    let world : World := .start .standard (Memory.backend .empty) default
    let input : RunInput := ⟨"r", ⟨"acme", none⟩, ⟨[], [], [], [], [⟨"fetch", [], none⟩]⟩, ∅⟩
    let executor : Executor := fun _ _ => .fail (.crashed "no page")
    let outcome : Outcome := .failed "Run r panicked: no page"
    let moves : List Move :=
      [.start input, .call 0, .call 0, .wait "r", .call 1] ++ List.replicate 8 (.task 0) ++
        [.start input, .call 2, .call 2, .call 1, .call 1] ++ List.replicate 8 (.task 1) ++
        [.call 1, .wait "r", .call 1, .call 3, .call 1, .call 3]
    (∀ move ∈ moves, move.tidiesUp = false) ∧
      ((start .standard world).run executor moves).Accounts ∧
      ((start .standard world).run executor moves).deeds =
        [.collected 3 "r" none, .collected 1 "r" (some outcome), .awaited 3 "r",
          .stored 1 "r" outcome, .finished 1 outcome, .started 1 "r",
          .stored 0 "r" outcome, .finished 0 outcome, .awaited 1 "r", .started 0 "r"] := by
  refine ⟨by decide, outcomes_accounted _ _ _ (by decide), ?_⟩
  rfl

end Chronicle

end RunParams
