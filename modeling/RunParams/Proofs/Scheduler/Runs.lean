import RunParams.Proofs.Run.Phases
import RunParams.Proofs.Scheduler.Tables

/-!
# Runs in tasks

A task resumes its run again and again, in whatever world it finds. So while it performs the run,
what is left of the run is in a phase (`Task.InPhase`), and each turn of the task is a stretch from
phase to phase or the last one.

So every task that performs its run is in some phase, and when nobody does other work than the
scheduler, every task has a flag that is there (`Machine.Steered`). A flag that is raised stays
raised then, provided that the executor does not lower it (`Machine.flagsRise_turn`).
-/

namespace RunParams

/-- Whether a task performs its run. -/
def TaskState.performs : TaskState → Bool
  | running _ _ => true
  | _ => false

/-- A task that performs its run waits for something. -/
theorem TaskState.performs_iff {state : TaskState} :
    state.performs = true ↔ ∃ wait resume, state = .running wait resume := by
  cases state with
  | running wait resume => exact ⟨fun _ => ⟨wait, resume, rfl⟩, fun _ => rfl⟩
  | storing _ | unflagging | leaving | ended | aborted => exact ⟨nofun, nofun⟩

/-- A task that performs its run is not over. -/
theorem TaskState.isOver_of_performs {state : TaskState} (h : state.performs = true) :
    state.isOver = false := by
  obtain ⟨wait, resume, rfl⟩ := performs_iff.mp h
  rfl

/-- A task performs its run, which is in a phase. -/
def Task.InPhase (executor : Executor) (t : Task) (q : Phase) : Prop :=
  ∃ wait resume, t.state = .running wait resume ∧
    (q.checked = true → ∃ number, wait = .context number) ∧
    ∀ w, (resume w).Follows (Stretch executor.KeepsStopping t.run t.flag)
      (fun q a s _ => Leaves executor.KeepsStopping t.run t.flag q a s) q w

variable {executor : Executor} {t : Task} {q : Phase} {wait wait' : Wait}
  {resume resume' : World → Paused World Failure Summary} {w w' : World}

/-- A turn of a task up to the next wait is a stretch to the next phase. -/
theorem Task.InPhase.ran (h : t.InPhase executor q) (hrunning : t.state = .running wait resume)
    (hstretch : resume w = .waiting w' wait' resume') :
    ∃ q', Stretch executor.KeepsStopping t.run t.flag q w w' wait' q' ∧
      Task.InPhase executor { t with state := .running wait' resume' } q' := by
  obtain ⟨wait, resume, hstate, -, hfollows⟩ := h
  rw [hrunning] at hstate
  cases hstate
  -- The phases follow what the run may do from any state of the world, so also from this one.
  have hnext := hfollows w
  rw [hstretch] at hnext
  obtain ⟨q', hstep, hrest⟩ := hnext
  exact ⟨q', hstep, wait', resume', rfl, hstep.locks, hrest⟩

/-- The last turn of a task that performs its run is the last stretch. -/
theorem Task.InPhase.finished (h : t.InPhase executor q)
    (hrunning : t.state = .running wait resume) {result : Except Failure Summary}
    (hstretch : resume w = .ended w' result) :
    Leaves executor.KeepsStopping t.run t.flag q w w' := by
  obtain ⟨wait, resume, hstate, -, hfollows⟩ := h
  rw [hrunning] at hstate
  cases hstate
  -- The same rule for a run that returns: what it leaves is what its phase allows.
  have hnext := hfollows w
  rw [hstretch] at hnext
  exact hnext

/-- The task of a run that has just been started is in the phase without a context. -/
theorem inPhase_enlist (executor : Executor) (input : RunInput) (flag : Nat) :
    Task.InPhase executor ⟨input.run, flag, .running .turn (input.perform executor flag)⟩
      .opening :=
  ⟨_, _, rfl, nofun, input.follows_perform executor flag⟩

/-- Flags may be added and raised, but none is lowered. -/
structure World.FlagsRise (w w' : World) : Prop where
  count : w.flags.length ≤ w'.flags.length
  raised : ∀ flag, w.flagged flag = true → w'.flagged flag = true

namespace World

/-- Flags that are the same are not lowered. -/
theorem FlagsRise.of_eq (h : w'.flags = w.flags) : w.FlagsRise w' :=
  ⟨Nat.le_of_eq (congrArg List.length h).symm, fun flag hraised => by
    rw [flagged, h]
    exact hraised⟩

/-- A run with an executor that does not lower flags lowers none. -/
theorem FlagsKept.rise {insists : Prop} {flag : Nat} (h : w.FlagsKept insists flag w')
    (hinsists : insists) : w.FlagsRise w' := by
  refine ⟨Nat.le_of_eq h.count.symm, fun other hraised => ?_⟩
  by_cases hother : other = flag
  · subst hother
    exact h.own hinsists hraised
  · rw [h.others other hother]
    exact hraised

/-- Raising a flag lowers none. -/
theorem flagsRise_raiseFlag (w : World) (flag : Nat) : w.FlagsRise (w.raiseFlag flag) := by
  refine ⟨Nat.le_of_eq List.length_set.symm, fun other hraised => ?_⟩
  rw [flagged_set _ w.flags flag other true rfl]
  split
  · rfl
  · exact hraised

/-- Adding a flag lowers none. -/
theorem flagsRise_addFlag (w : World) : w.FlagsRise w.addFlag.2 := by
  have hlength : w.addFlag.2.flags.length = w.flags.length + 1 := List.length_append
  refine ⟨by omega, fun flag hraised => ?_⟩
  have hused : flag < w.flags.length := lt_of_flagged hraised
  show (w.flags ++ [false]).getD flag false = true
  rw [List.getD_eq_getElem?_getD, List.getElem?_append_left hused,
    ← List.getD_eq_getElem?_getD]
  exact hraised

end World

namespace Machine

variable {m m' : Machine} {move : Move} {d : Option Deed}

/-- Every task that performs its run is in a phase. -/
def Phased (executor : Executor) (m : Machine) : Prop :=
  ∀ (number : Nat) t, m.system.tasks[number]? = some t → t.state.performs = true →
    ∃ q, t.InPhase executor q

/-- No call does other work than that of a scheduler. -/
def Unworked (m : Machine) : Prop :=
  ∀ (number : Nat) state, m.calls[number]? = some state → state.works = false

/-- Every task has a flag that is there. -/
def Flagged (m : Machine) : Prop :=
  ∀ (number : Nat) t, m.system.tasks[number]? = some t → t.flag < m.system.world.flags.length

/-- A task that performs its run after a turn has not moved, or has gone on to its next wait, or has
just been started. If the turn was its own and it has not moved, nothing was done at all. -/
theorem Turn.running (hturn : Turn executor m move d m') {number : Nat} {found : Task}
    (hfound : m'.system.tasks[number]? = some found) (hrunning : found.state.performs = true) :
    (m.system.tasks[number]? = some found ∧
        (move = .task number → m.system.world.Untouched m'.system.world)) ∨
      (∃ t wait resume wait' resume', move = .task number ∧ m.system.tasks[number]? = some t ∧
        t.state = .running wait resume ∧
        resume m.system.world = .waiting m'.system.world wait' resume' ∧
        found = { t with state := .running wait' resume' }) ∨
      ∃ call input, move = .call call ∧ m.calls[call]? = some (.listing input) ∧
        number = m.system.tasks.length ∧
        found = ⟨input.run, m.system.world.flags.length,
          .running .turn (input.perform executor m.system.world.flags.length)⟩ := by
  -- A task that has gone on to wrap up does not perform its run any more.
  have hset : ∀ {s : System} {other : Nat} {t : Task} {state : TaskState},
      s.tasks = m.system.tasks → m.system.tasks[other]? = some t → state.performs = false →
      (s.setTask other state).tasks[number]? = some found →
      m.system.tasks[number]? = some found ∧ number ≠ other := by
    intro s other t state htasks there hstate hfound
    -- If this task is the one whose state was set, it does not perform, against what is known of
    -- it.
    rcases System.task_of_setTask (htasks ▸ there) hfound with ⟨-, rfl⟩ | ⟨hne, hfound⟩
    · rw [hstate] at hrunning
      cases hrunning
    · exact ⟨htasks ▸ hfound, hne⟩
  have hother : ∀ {other : Nat}, m.system.tasks[number]? = some found ∧ number ≠ other →
      m.system.tasks[number]? = some found ∧
        (Move.task other = .task number → m.system.world.Untouched m'.system.world) := by
    intro other h
    exact ⟨h.1, fun hmove => absurd (Move.task.inj hmove).symm h.2⟩
  -- A task that performs its run after a turn did so before, has done a stretch, or is new.
  cases hturn with
  | still _ same | called same _ _ _ => exact .inl ⟨hfound, fun _ => same⟩
  | raised _ _ | began _ | awaited _ | pruned _ _ | refused _ | listed _ _ _ | slept _ _
  | noticed _ _ | woken _ | collected _ | joined _ | discarded _ | stripped _ | closed _
  | read _ _ | expired _ _ | worked _ | swept _ _ _ => exact .inl ⟨hfound, nofun⟩
  -- The turn of another task leaves this one as it was found.
  | @ran other t there wait resume running world wait' resume' stretch =>
    rcases System.task_of_setTask (s := m.system.withWorld world) there hfound with
      ⟨rfl, rfl⟩ | ⟨hne, hfound⟩
    · exact .inr (.inl ⟨t, wait, resume, wait', resume', rfl, there, running, stretch, rfl⟩)
    · exact .inl (hother ⟨hfound, hne⟩)
  | @finished _ _ there _ _ _ world _ _ =>
    exact .inl (hother (hset (s := m.system.withWorld world) rfl there rfl hfound))
  | @stored _ t outcome there _ =>
    exact .inl (hother (hset (s := m.system.store t.run outcome) rfl there rfl hfound))
  | @unflagged _ t there _ =>
    exact .inl (hother (hset (s := m.system.unflag t.run) rfl there rfl hfound))
  | @left _ t there _ _ =>
    exact .inl (hother (hset (s := m.system.leave t.run) rfl there rfl hfound))
  -- The new task is the last one, and all before it are as they were.
  | @started call input there =>
    rcases System.task_of_enlist hfound with ⟨hnew, rfl⟩ | ⟨-, hfound⟩
    · exact .inr (.inr ⟨call, input, rfl, there, hnew, rfl⟩)
    · exact .inl ⟨hfound, nofun⟩
  -- A task that was aborted is over, so what is found here was not active.
  | aborted there free =>
    obtain ⟨t, ht, rfl | rfl⟩ := System.task_of_abortAll hfound
    · exact .inl ⟨ht, nofun⟩
    · have hover := t.isOver_halted
      rw [TaskState.isOver_of_performs hrunning] at hover
      cases hover

/-- Every turn leaves every task that performs its run in a phase. -/
theorem Phased.turn (hturn : Turn executor m move d m') (h : m.Phased executor) :
    m'.Phased executor := by
  intro number found hfound hrunning
  rcases hturn.running hfound hrunning with ⟨hfound, -⟩ |
    ⟨t, wait, resume, wait', resume', -, ht, hstate, hstretch, rfl⟩ |
    ⟨-, input, -, -, -, rfl⟩
  · -- The three ways in which the task has come to perform its run are three ways to know its
    -- phase.
    exact h number found hfound hrunning
  · obtain ⟨q, hq⟩ := h number t ht (TaskState.performs_iff.mpr ⟨wait, resume, hstate⟩)
    obtain ⟨q', -, hq'⟩ := hq.ran hstate hstretch
    exact ⟨q', hq'⟩
  · exact ⟨.opening, inPhase_enlist executor input _⟩

/-- While no call does other work, a turn lowers no flag, if executors do not. -/
theorem flagsRise_turn (hturn : Turn executor m move d m') (hphased : m.Phased executor)
    (hunworked : m.Unworked) (hmove : move.isWork = false) (hkeeps : executor.KeepsStopping) :
    m.system.world.FlagsRise m'.system.world := by
  -- Flags are raised by a request to stop or by the run's own executor, and added at a start. All
  -- other turns leave them.
  cases hturn with
  | still _ same | called same _ _ _ | read _ same | swept _ same _ =>
    exact .of_eq same.flags
  | @raised run flag signal world same =>
    have hrise := World.flagsRise_raiseFlag m.system.world flag
    have hsame : (m.system.world.raiseFlag flag).FlagsRise world := .of_eq same.flags
    exact ⟨Nat.le_trans hrise.count hsame.count,
      fun other hraised => hsame.raised other (hrise.raised other hraised)⟩
  | began _ => cases hmove
  | awaited _ | stored _ _ | unflagged _ _ | left _ _ _ | refused _ | listed _ _ _ | slept _ _
  | noticed _ _ | woken _ | collected _ | joined _ | stripped _ | closed _ | pruned _ _ =>
    exact .of_eq rfl
  -- What a run does to the flags is known from the phase that it is in.
  | @ran number t there wait resume running world wait' resume' stretch =>
    obtain ⟨q, hq⟩ := hphased number t there (TaskState.performs_iff.mpr ⟨wait, resume, running⟩)
    obtain ⟨q', hstep, -⟩ := hq.ran running stretch
    exact hstep.progress.flags.rise hkeeps
  | @finished number t there wait resume running world result stretch =>
    obtain ⟨q, hq⟩ := hphased number t there (TaskState.performs_iff.mpr ⟨wait, resume, running⟩)
    exact (hq.finished running stretch).flags.rise hkeeps
  | started _ => exact World.flagsRise_addFlag m.system.world
  | aborted _ _ => exact .of_eq (System.untouched_abortAll m.system).flags
  | @discarded number run rest there =>
    exact .of_eq (Registry.discardNow_same run m.system.world).2.2
  | @expired number now there world same => exact .of_eq same.flags
  -- Other work could do anything to the flags, and there is none.
  | worked there => exact absurd (hunworked _ _ there) nofun

/-- No call comes to do other work when nobody begins any. -/
theorem Unworked.turn (hturn : Turn executor m move d m') (hmove : move.isWork = false)
    (h : m.Unworked) : m'.Unworked := by
  cases hturn with
  | still _ _ | raised _ _ | ran _ _ _ | finished _ _ _ | stored _ _ | unflagged _ _ | left _ _ _
  | pruned _ _ => exact h
  -- The new call does one of three things, none of which is other work.
  | called same state new kind =>
    rcases new with rfl | rfl | ⟨input, rfl⟩
    · exact forall_call_addCall h rfl
    · exact forall_call_addCall h rfl
    · exact forall_call_addCall h rfl
  | began program => cases hmove
  | awaited run => exact forall_call_addCall h rfl
  | refused there | slept there _ | noticed there _ | woken there | collected there
  | listed there _ _ | started there | aborted there _ | joined there | discarded there
  | stripped there | closed there | read there _ | expired there _ | swept there _ _ =>
    exact forall_call_goOn h there rfl
  | worked there => exact absurd (h _ _ there) nofun

/-- A task that performs its run goes on to do so after a turn, unless that was the last stretch of
the run or a shutdown aborts all active runs. -/
theorem Turn.performs (hturn : Turn executor m move d m') {number : Nat} {t : Task} {wait : Wait}
    {resume : World → Paused World Failure Summary} (ht : m.system.tasks[number]? = some t)
    (hrunning : t.state = .running wait resume) :
    (∃ t', m'.system.tasks[number]? = some t' ∧ t'.state.performs = true) ∨
      (∃ result, resume m.system.world = .ended m'.system.world result) ∨
      ∃ call : Nat, m'.calls[call]? = some (.joining m.system.active.entries) := by
  have hperforms : t.state.performs = true := TaskState.performs_iff.mpr ⟨wait, resume, hrunning⟩
  -- Another task's turn leaves this one as it is.
  have hset : ∀ {s : System} {other : Nat} {there : Task} {state : TaskState},
      s.tasks = m.system.tasks → m.system.tasks[other]? = some there →
      number = other ∧ there = t ∨
        ∃ t', (s.setTask other state).tasks[number]? = some t' ∧ t'.state.performs = true := by
    intro s other there state htasks hthere
    by_cases hother : number = other
    · -- It is the task whose turn it is, which is the one that performs its run.
      subst hother
      rw [ht] at hthere
      exact .inl ⟨rfl, (Option.some.inj hthere).symm⟩
    · refine .inr ⟨t, ?_, hperforms⟩
      rw [System.getElem?_setTask, if_neg hother, htasks]
      exact ht
  -- Either another has its turn, or the task goes on or returns; only a shutdown ends it otherwise.
  cases hturn with
  | still _ _ | raised _ _ | called _ _ _ _ | began _ | awaited _ | pruned _ _ | refused _
  | listed _ _ _ | slept _ _ | noticed _ _ | woken _ | collected _ | joined _ | discarded _
  | stripped _ | closed _ | read _ _ | expired _ _ | worked _ | swept _ _ _ =>
    exact .inl ⟨t, ht, hperforms⟩
  | @ran other there hthere _ _ _ world wait' resume' _ =>
    rcases hset (s := m.system.withWorld world) rfl hthere with ⟨rfl, rfl⟩ | hsame
    · refine .inl ⟨{ there with state := .running wait' resume' }, ?_, rfl⟩
      rw [System.getElem?_setTask, if_pos rfl]
      exact congrArg (Option.map _) hthere
    · exact .inl hsame
  | @finished other there hthere _ _ running world result stretch =>
    rcases hset (s := m.system.withWorld world) rfl hthere with ⟨rfl, rfl⟩ | hsame
    · rw [hrunning] at running
      cases running
      exact .inr (.inl ⟨result, stretch⟩)
    · exact .inl hsame
  -- A task that performs its run is in none of the states of wrapping up.
  | @stored other there outcome hthere storing =>
    rcases hset (s := m.system.store there.run outcome) rfl hthere with ⟨rfl, rfl⟩ | hsame
    · cases hrunning.symm.trans storing
    · exact .inl hsame
  | @unflagged other there hthere unflagging =>
    rcases hset (s := m.system.unflag there.run) rfl hthere with ⟨rfl, rfl⟩ | hsame
    · cases hrunning.symm.trans unflagging
    · exact .inl hsame
  | @left other there hthere leaving free =>
    rcases hset (s := m.system.leave there.run) rfl hthere with ⟨rfl, rfl⟩ | hsame
    · cases hrunning.symm.trans leaving
    · exact .inl hsame
  | @started call input hthere =>
    have hused : number < m.system.tasks.length := (List.getElem?_eq_some_iff.mp ht).1
    refine .inl ⟨t, ?_, hperforms⟩
    show (m.system.enlist executor input).tasks[number]? = some t
    rw [System.getElem?_enlist, if_neg (Nat.ne_of_lt hused)]
    exact ht
  -- The shutdown has aborted it and is to join all that were active.
  | @aborted call there free =>
    refine .inr (.inr ⟨call, ?_⟩)
    rw [getElem?_goOn there, if_pos rfl]
    rfl

/-- A task is one that was there before, over if it was, or that of a run that has just been
started. -/
theorem Turn.task (hturn : Turn executor m move d m') {number : Nat} {found : Task}
    (hfound : m'.system.tasks[number]? = some found) :
    (∃ t, m.system.tasks[number]? = some t ∧ found.run = t.run ∧ found.flag = t.flag ∧
        (t.state.isOver = true → found.state.isOver = true)) ∨
      ∃ call input, move = .call call ∧ m.calls[call]? = some (.listing input) ∧
        number = m.system.tasks.length ∧ found.run = input.run ∧
        found.flag = m.system.world.flags.length ∧
        m'.system.world = m.system.world.addFlag.2 := by
  have hset : ∀ {s : System} {other : Nat} {t : Task} {old state : TaskState},
      s.tasks = m.system.tasks → m.system.tasks[other]? = some t → t.state = old →
      old.isOver = false → (s.setTask other state).tasks[number]? = some found →
      ∃ t, m.system.tasks[number]? = some t ∧ found.run = t.run ∧ found.flag = t.flag ∧
        (t.state.isOver = true → found.state.isOver = true) := by
    intro s other t old state htasks there hold hover hfound
    -- A task that is over has no turn, so being over is kept for want of a case.
    rcases System.task_of_setTask (htasks ▸ there) hfound with ⟨rfl, rfl⟩ | ⟨-, hfound⟩
    · refine ⟨t, there, rfl, rfl, fun h => ?_⟩
      rw [hold, hover] at h
      cases h
    · exact ⟨found, htasks ▸ hfound, rfl, rfl, id⟩
  -- Tasks keep their runs and their flags, and a new one gets the next flag.
  cases hturn with
  | still _ _ | raised _ _ | called _ _ _ _ | began _ | awaited _ | pruned _ _ | refused _
  | listed _ _ _ | slept _ _ | noticed _ _ | woken _ | collected _ | joined _ | discarded _
  | stripped _ | closed _ | read _ _ | expired _ _ | worked _ | swept _ _ _ =>
    exact .inl ⟨found, hfound, rfl, rfl, id⟩
  | @ran _ _ there _ _ running world _ _ _ =>
    exact .inl (hset (s := m.system.withWorld world) rfl there running rfl hfound)
  | @finished _ _ there _ _ running world _ _ =>
    exact .inl (hset (s := m.system.withWorld world) rfl there running rfl hfound)
  | @stored _ t outcome there storing =>
    exact .inl (hset (s := m.system.store t.run outcome) rfl there storing rfl hfound)
  | @unflagged _ t there unflagging =>
    exact .inl (hset (s := m.system.unflag t.run) rfl there unflagging rfl hfound)
  | @left _ t there leaving _ =>
    exact .inl (hset (s := m.system.leave t.run) rfl there leaving rfl hfound)
  | @started call input there =>
    rcases System.task_of_enlist hfound with ⟨hnew, rfl⟩ | ⟨-, hfound⟩
    · exact .inr ⟨call, input, rfl, there, hnew, rfl, rfl, rfl⟩
    · exact .inl ⟨found, hfound, rfl, rfl, id⟩
  | aborted there free =>
    -- An aborted task keeps its run and flag and is over.
    obtain ⟨t, ht, rfl | rfl⟩ := System.task_of_abortAll hfound
    · exact .inl ⟨found, ht, rfl, rfl, id⟩
    · exact .inl ⟨t, ht, t.halted_same.1, t.halted_same.2, fun _ => t.isOver_halted⟩

/-- No turn takes a task away. -/
theorem Turn.length_tasks (hturn : Turn executor m move d m') :
    m.system.tasks.length ≤ m'.system.tasks.length := by
  have hset : ∀ (s : System) (number : Nat) (state : TaskState),
      s.tasks.length ≤ (s.setTask number state).tasks.length :=
    fun s number state => Nat.le_of_eq (List.length_modify _ _ _).symm
  -- Only a start adds a task, and none is ever removed.
  cases hturn with
  | still _ _ | raised _ _ | called _ _ _ _ | began _ | awaited _ | pruned _ _ | refused _
  | listed _ _ _ | slept _ _ | noticed _ _ | woken _ | collected _ | joined _ | discarded _
  | stripped _ | closed _ | read _ _ | expired _ _ | worked _ | swept _ _ _ => exact Nat.le_refl _
  | @ran _ _ _ _ _ _ world _ _ _ => exact hset (m.system.withWorld world) _ _
  | @finished _ _ _ _ _ _ world _ _ => exact hset (m.system.withWorld world) _ _
  | stored _ _ => exact hset (m.system.store _ _) _ _
  | unflagged _ _ => exact hset (m.system.unflag _) _ _
  | left _ _ _ => exact hset (m.system.leave _) _ _
  | @started _ input _ =>
    show m.system.tasks.length ≤ (m.system.tasks ++ [_]).length
    rw [List.length_append]
    exact Nat.le_add_right _ _
  | aborted _ _ =>
    exact Nat.le_of_eq
      (System.length_abortEach m.system.active.entries { m.system with active := ∅ }).symm

/-- A task is there after a turn, with the same run and the same flag. -/
theorem Turn.task_stays (hturn : Turn executor m move d m') {number : Nat} {t : Task}
    (ht : m.system.tasks[number]? = some t) :
    ∃ t', m'.system.tasks[number]? = some t' ∧ t'.run = t.run ∧ t'.flag = t.flag := by
  have hused : number < m.system.tasks.length := (List.getElem?_eq_some_iff.mp ht).1
  have hfound := List.getElem?_eq_getElem (Nat.lt_of_lt_of_le hused hturn.length_tasks)
  refine ⟨_, hfound, ?_⟩
  -- A task found at this number is the old one, since a new one would have the next number.
  rcases hturn.task hfound with ⟨t', ht', hrun, hflag, -⟩ | ⟨-, -, -, -, hnew, -⟩
  · rw [ht] at ht'
    cases ht'
    exact ⟨hrun, hflag⟩
  · omega

/-- Every turn leaves every task with a flag that is there, when flags are not taken away. -/
theorem Flagged.turn (hturn : Turn executor m move d m')
    (hcount : m.system.world.flags.length ≤ m'.system.world.flags.length) (h : m.Flagged) :
    m'.Flagged := by
  intro number found hfound
  -- An old task has a flag that was there before, and a new one the flag that was added with it.
  rcases hturn.task hfound with ⟨t, ht, -, hflag, -⟩ | ⟨-, -, -, -, -, -, hflag, hworld⟩
  · rw [hflag]
    exact Nat.lt_of_lt_of_le (h number t ht) hcount
  · rw [hflag, hworld]
    show m.system.world.flags.length < (m.system.world.flags ++ [false]).length
    rw [List.length_append]
    exact Nat.lt_succ_self _

/-- What holds of a machine when nobody does other work than the scheduler. -/
structure Steered (executor : Executor) (m : Machine) : Prop where
  phased : m.Phased executor
  unworked : m.Unworked
  flagged : m.Flagged

/-- Nothing has been done at the beginning. -/
theorem steered_ofWorld (executor : Executor) (settings : RunnerSettings) (world : World) :
    (Machine.ofWorld settings world).Steered executor :=
  ⟨nofun, nofun, nofun⟩

/-- Every turn that begins no other work leaves a machine as steered as it was. -/
theorem Steered.turn (hturn : Turn executor m move d m') (hmove : move.isWork = false)
    (hkeeps : executor.KeepsStopping) (h : m.Steered executor) : m'.Steered executor := by
  have hrise := flagsRise_turn hturn h.phased h.unworked hmove hkeeps
  exact ⟨h.phased.turn hturn, h.unworked.turn hturn hmove, h.flagged.turn hturn hrise.count⟩

end Machine

end RunParams
