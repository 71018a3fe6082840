import RunParams.Lookup.Memory
import RunParams.Proofs.Scheduler.Tables

/-!
# Who wakes a wait

A call to wait for a run goes to sleep when it finds the run active, and each ending that is
signalled from then on wakes it. A task takes its run out of the table of active runs and signals
the ending at a stretch. So whoever sleeps after the signal sleeps for an active run, whose task
will signal (`Machine.Attended`).

A shutdown takes all runs out of the table as well, but it aborts their tasks and signals nothing.
Who is asleep then is stranded: the wait does not return, although its run will never end. There is
no other way to be stranded (`Machine.none_stranded_iff`).
-/

namespace RunParams.Machine

variable {executor : Executor} {m m' : Machine} {move : Move} {d : Option Deed} {number : Nat}
  {state : CallState} {system : System}

/-- A call to wait for a run sleeps, and no ending has been signalled since it looked. -/
def Asleep (m : Machine) (call : Nat) (run : String) : Prop :=
  ∃ seen, m.calls[call]? = some (.sleeping run seen) ∧ m.system.endings ≤ seen

/-- A call to wait for a run is asleep, and no task is left that will signal the end of the run. -/
structure Stranded (m : Machine) (call : Nat) (run : String) : Prop where
  asleep : m.Asleep call run
  inactive : m.system.isActive run = false
  ended : ∀ (task : Nat) t, m.system.tasks[task]? = some t → t.run = run → t.state.isOver = true

/-- By a move a shutdown takes all runs out of the table of active runs. -/
def Empties (m : Machine) (move : Move) : Prop :=
  ∃ call, move = .call call ∧ m.calls[call]? = some .closing ∧ m.holder = none

/-- Whoever is asleep waits for an active run. -/
def Attended (m : Machine) : Prop := ∀ call run, m.Asleep call run → m.system.isActive run = true

/-- Nobody is stranded exactly when whoever is asleep waits for an active run. -/
theorem attended_iff (h : m.Sound) : m.Attended ↔ ∀ call run, ¬ m.Stranded call run := by
  -- A call that sleeps for a run is attended when the run is active, and else it is stranded: then
  -- all tasks of the run are over, and nobody will signal an ending.
  constructor
  · intro hattended call run hstranded
    have hactive := hattended call run hstranded.asleep
    rw [hstranded.inactive] at hactive
    cases hactive
  · intro hnone call run hasleep
    refine Bool.not_eq_false _ |>.mp fun hinactive => ?_
    refine hnone call run ⟨hasleep, hinactive, fun task t ht hrun => ?_⟩
    -- A task that is not over stands in the table.
    refine Bool.not_eq_false _ |>.mp fun hover => ?_
    have hpresent := h.paired.present task t ht hover
    rw [hrun, isActive_eq_false_iff.mp hinactive] at hpresent
    cases hpresent

/-! ## Falling asleep -/

/-- Who is asleep when a call is added that does not sleep has been so before. -/
theorem Asleep.of_addCall {call : Nat} {run : String} (h : (m.addCall state).Asleep call run)
    (hnew : state.seen? = none ∨ ∃ other seen, state = .watching other seen) :
    m.Asleep call run := by
  obtain ⟨seen, hcall, hseen⟩ := h
  rcases call_of_addCall hcall with ⟨-, rfl⟩ | ⟨-, hcall⟩
  · -- A call that has just been called is not asleep: it has seen all endings, if it looks at any.
    rcases hnew with hnone | ⟨other, seen', hwatching⟩
    · cases hnone
    · cases hwatching
  · exact ⟨seen, hcall, hseen⟩

/-- Who is asleep after a call has gone on that does not sleep has been so before. -/
theorem Asleep.of_goOn {old : CallState} {call : Nat} {run : String}
    (h : (m.goOn number state system).Asleep call run) (hthere : m.calls[number]? = some old)
    (hnew : state.seen? = none ∨ ∃ other seen, state = .watching other seen)
    (hendings : system.endings = m.system.endings) : m.Asleep call run := by
  obtain ⟨seen, hcall, hseen⟩ := h
  -- A call that goes on to something else is awake; one that sleeps was asleep before.
  rcases call_of_goOn hthere hcall with ⟨-, rfl⟩ | ⟨-, hcall⟩
  · rcases hnew with hnone | ⟨other, seen', hwatching⟩
    · cases hnone
    · cases hwatching
  · exact ⟨seen, hcall, hendings ▸ hseen⟩

/-- A call that goes on and does not sleep leaves the others attended, when no active run is lost.
-/
theorem Attended.goOn {old : CallState} (h : m.Attended) (hthere : m.calls[number]? = some old)
    (hnew : state.seen? = none ∨ ∃ other seen, state = .watching other seen)
    (hendings : system.endings = m.system.endings)
    (hactive : ∀ run, m.system.isActive run = true → system.isActive run = true) :
    (m.goOn number state system).Attended :=
  fun call run hasleep => hactive run (h call run (hasleep.of_goOn hthere hnew hendings))

/-- Every turn leaves those who are asleep attended, unless a shutdown empties the table while
someone is asleep. -/
theorem Turn.attended (hturn : Turn executor m move d m') (hsound : m.Sound) (h : m.Attended)
    (hempties : m.Empties move → ∀ call run, ¬ m.Asleep call run) : m'.Attended := by
  -- Two turns matter. A task that leaves wakes everybody. A shutdown that empties the table leaves
  -- no one to wake the sleepers, so there must be none.
  cases hturn with
  | still _ _ | raised _ _ | ran _ _ _ | finished _ _ _ | stored _ _ | unflagged _ _
  | pruned _ _ => exact h
  | left there leaving free =>
    -- An ending is signalled, so nobody is asleep any more.
    rintro call run ⟨seen, hcall, hseen⟩
    have hbefore : seen ≤ m.system.endings := hsound.seen call _ seen hcall rfl
    change m.system.endings + 1 ≤ seen at hseen
    omega
  | called same state new kind =>
    have hnone : state.seen? = none := by
      rcases new with rfl | rfl | ⟨input, rfl⟩
      · rfl
      · rfl
      · rfl
    -- The new call is not asleep, and the old ones sleep for runs that are active still.
    exact fun call run hasleep => h call run (hasleep.of_addCall (.inl hnone))
  | began program =>
    have hnone := CallState.seen?_of_isAside
      (CallState.isAside_ofPaused (program m.system.world))
    exact fun call run hasleep => h call run (hasleep.of_addCall (.inl hnone))
  | awaited run =>
    exact fun call run' hasleep => h call run' (hasleep.of_addCall (.inr ⟨run, _, rfl⟩))
  | refused there | listed there _ _ | noticed there _ | collected there | joined there
  | discarded there | stripped there | closed there | read there _ | expired there _
  | swept there _ _ =>
    exact h.goOn there (.inl rfl) rfl fun _ hactive => hactive
  -- More runs are active after a start, so whoever was attended still is.
  | @started number input there =>
    refine h.goOn there (.inl rfl) rfl fun run hactive => ?_
    obtain ⟨task, htask⟩ := isActive_iff.mp hactive
    have hget : (m.system.enlist executor input).active.get? run =
        if run = input.run then some m.system.tasks.length else m.system.active.get? run :=
      KeyMap.get?_insert m.system.active input.run run m.system.tasks.length
    refine isActive_iff.mpr ?_
    rw [hget]
    split
    · exact ⟨_, rfl⟩
    · exact ⟨task, htask⟩
  -- The call that falls asleep has just seen that its run is active.
  | @slept number run seen there task present =>
    rintro call run' ⟨seen', hcall, hseen⟩
    rcases call_of_goOn there hcall with ⟨-, hstate⟩ | ⟨-, hcall⟩
    · cases hstate
      exact isActive_iff.mpr ⟨task, present⟩
    · exact h call run' ⟨seen', hcall, hseen⟩
  | woken there => exact h.goOn there (.inr ⟨_, _, rfl⟩) rfl fun _ hactive => hactive
  | @aborted number there free =>
    intro call run hasleep
    have hendings := (System.abortAll_tables m.system).endings
    exact absurd (hasleep.of_goOn there (.inl rfl) hendings)
      (hempties ⟨number, rfl, there, free⟩ call run)
  -- Other work may do anything to the world, but it leaves the table of active runs alone.
  | @worked number wait resume there =>
    have hnone := CallState.seen?_of_isAside
      (CallState.isAside_ofPaused (resume m.system.world))
    exact h.goOn there (.inl hnone) rfl fun _ hactive => hactive

/-- Nobody is asleep at the beginning. -/
theorem attended_ofWorld (settings : RunnerSettings) (world : World) :
    (Machine.ofWorld settings world).Attended := by
  rintro call run ⟨seen, hcall, -⟩
  cases hcall

/-- Those who are asleep are attended after all moves, if no shutdown empties the table while
someone is asleep. -/
theorem attended_after {settings : RunnerSettings} {world : World} {moves : List Move}
    (hempties : ∀ before move, before ++ [move] <+: moves →
      (after executor settings world before).Empties move →
      ∀ call run, ¬ (after executor settings world before).Asleep call run) :
    (after executor settings world moves).Attended := by
  refine run_induction (attended_ofWorld settings world) fun before move hbefore h => ?_
  exact (turn_step executor _ move).attended (sound_after executor settings world before) h
    (hempties before move hbefore)

/-! ## Who is stranded -/

/-- Whoever is asleep when a shutdown empties the table is stranded. -/
theorem Asleep.stranded {call : Nat} {run : String} (h : m.Asleep call run) (hsound : m.Sound)
    (hempties : m.Empties move) : (m.step executor move).Stranded call run := by
  obtain ⟨number, rfl, there, free⟩ := hempties
  have hstep : m.step executor (.call number) =
      m.goOn number (.joining m.system.abortAll.1) m.system.abortAll.2 := by
    have hheld : m.holder.isSome = false := by rw [free]; rfl
    simp only [step, stepCall, there, stepShutdown, hheld, Bool.false_eq_true, if_false]
  have htables := System.abortAll_tables m.system
  rw [hstep]
  -- The call sleeps on, its run is not active any more, and all tasks are over, since all that were
  -- active have been aborted.
  refine ⟨?_, isActive_eq_false_iff.mpr ?_, fun task t ht _ => hsound.paired.isOver_abortAll ht⟩
  · obtain ⟨seen, hcall, hseen⟩ := h
    -- The shutdown is a call of its own, and not the one that sleeps.
    have hne : call ≠ number := by
      rintro rfl
      rw [there] at hcall
      cases hcall
    refine ⟨seen, ?_, ?_⟩
    · rw [getElem?_goOn there, if_neg hne]
      exact hcall
    · exact Nat.le_trans (Nat.le_of_eq htables.endings) hseen
  · exact (congrArg (KeyMap.get? · run) htables.active).trans rfl

/-- Whatever the order of starts, waits, turns of tasks, requests to stop runs, sweeps and
shutdowns: at no time a call to wait is stranded, if and only if no shutdown empties the table of
active runs while a call to wait is asleep. -/
theorem none_stranded_iff (executor : Executor) (settings : RunnerSettings) (world : World)
    (moves : List Move) :
    (∀ before, before <+: moves →
        ∀ call run, ¬ (after executor settings world before).Stranded call run) ↔
      ∀ before move, before ++ [move] <+: moves →
        (after executor settings world before).Empties move →
        ∀ call run, ¬ (after executor settings world before).Asleep call run := by
  -- In one direction a sleeper at a shutdown is stranded by it. In the other one nobody is stranded
  -- as long as no such shutdown has come.
  constructor
  · intro hnone before move hmoves hempties call run hasleep
    refine hnone (before ++ [move]) hmoves call run ?_
    rw [after_concat]
    exact hasleep.stranded (sound_after executor settings world before) hempties
  · intro hempties before hbefore
    refine (attended_iff (sound_after executor settings world before)).mp (attended_after ?_)
    exact fun first move hfirst => hempties first move (hfirst.trans hbefore)

/-- A wait for a run sleeps while a shutdown aborts the run. It still sleeps, and nothing is left to
wake it, when the shutdown has returned. -/
theorem stranded_by_shutdown :
    let world : World := .start .standard (Memory.backend .empty) default
    let input : RunInput := ⟨"r", ⟨"acme", none⟩, ⟨[], [], [], [], [⟨"fetch", [], none⟩]⟩, ∅⟩
    let moves : List Move := [.start input, .call 0, .call 0, .wait "r", .call 1] ++
      .shutdown :: List.replicate 5 (.call 2)
    let m := after echo .standard world moves
    m.calls[2]? = some .closed ∧ m.Stranded 1 "r" := by
  refine ⟨rfl, ⟨0, rfl, Nat.le_refl 0⟩, rfl, fun task t ht hrun => ?_⟩
  refine Bool.not_eq_false _ |>.mp fun hover => ?_
  have hpresent := (sound_after echo .standard _ _).paired.present task t ht hover
  rw [hrun] at hpresent
  cases hpresent

end RunParams.Machine
