import RunParams.Proofs.Scheduler.Neighbours
import RunParams.Proofs.Scheduler.Outcomes

/-!
# What a task takes and what it stores

A task performs its run a stretch at a time, in whatever world it finds. What it takes from what all
runs share in its own turns are its takings (`Machine.takings`). Since it is spared by all other
moves, the outcome that it stores is that of one of the ways in which the run may end among others
who spare it, and its takings are what the run takes then (`Machine.ComesTo`,
`Chronicle.comesTo_of_stored`).

What a task gets from stores that answer every query in one way does not depend on when it asks them
(`Machine.Peaceful.gives_takings`).
-/

namespace RunParams

open Program

namespace Machine

variable {executor : Executor} {m m' : Machine} {move : Move} {d : Option Deed} {number : Nat}
  {t : Task} {run : String} {outcome : Outcome}

/-! ## Takings -/

/-- Whether a move is the turn of a task. -/
def turnsTo (number : Nat) : Move → Bool
  | .task other => other = number
  | _ => false

/-- What a task takes in its own turns. -/
def takings (executor : Executor) (number : Nat) : Machine → List Move → Takings
  | _, [] => .none
  | m, move :: later =>
    (if turnsTo number move then m.system.world.taken (m.step executor move).system.world
      else .none) ++ takings executor number (m.step executor move) later

/-- What a task takes in its own turn comes before the rest. -/
theorem takings_own (executor : Executor) (m : Machine) (number : Nat) (later : List Move) :
    takings executor number m (.task number :: later) =
      m.system.world.taken (m.step executor (.task number)).system.world ++
        takings executor number (m.step executor (.task number)) later := by
  have hown : turnsTo number (.task number) = true := decide_eq_true rfl
  show (if turnsTo number (.task number) then _ else _) ++ _ = _
  rw [hown, if_pos rfl]

/-- A task takes nothing in the turn of another one. -/
theorem takings_other (executor : Executor) (m : Machine) {later : List Move}
    (h : turnsTo number move = false) :
    takings executor number m (move :: later) =
      takings executor number (m.step executor move) later := by
  show (if turnsTo number move then _ else _) ++ _ = _
  rw [h, if_neg Bool.false_ne_true, Takings.none_append]

/-- A move that is not the turn of a task is another one. -/
theorem ne_of_turnsTo (h : turnsTo number move = false) : move ≠ .task number := by
  rintro rfl
  simp [turnsTo] at h

/-- A move that is the turn of a task is just that. -/
theorem eq_of_turnsTo (h : turnsTo number move = true) : move = .task number := by
  cases move with
  | task other => exact congrArg Move.task (of_decide_eq_true h)
  | _ => cases h

/-! ## What a task does on its way -/

/-- A task stays as it is when another move than its own is made, or it is aborted. -/
theorem Turn.bystander (hturn : Turn executor m move d m')
    (ht : m.system.tasks[number]? = some t) (hmove : move ≠ .task number) :
    m'.system.tasks[number]? = some t ∨ m'.system.tasks[number]? = some t.halted := by
  have hset : ∀ {s : System} {other : Nat} {state : TaskState}, s.tasks = m.system.tasks →
      Move.task other ≠ .task number → (s.setTask other state).tasks[number]? = some t := by
    intro s other state htasks hother
    rw [System.getElem?_setTask, if_neg fun hsame => hother (congrArg Move.task hsame.symm), htasks]
    exact ht
  -- Another task is none of the turns' concern, except for a shutdown, which may abort it.
  cases hturn with
  | still _ _ | raised _ _ | called _ _ _ _ | began _ | awaited _ | pruned _ _ | refused _
  | listed _ _ _ | slept _ _ | noticed _ _ | woken _ | collected _ | joined _ | discarded _
  | stripped _ | closed _ | read _ _ | expired _ _ | worked _ | swept _ _ _ => exact .inl ht
  | @ran _ _ _ _ _ _ world _ _ _ => exact .inl (hset (s := m.system.withWorld world) rfl hmove)
  | @finished _ _ _ _ _ _ world _ _ => exact .inl (hset (s := m.system.withWorld world) rfl hmove)
  | @stored _ t' outcome _ _ => exact .inl (hset (s := m.system.store t'.run outcome) rfl hmove)
  | @unflagged _ t' _ _ => exact .inl (hset (s := m.system.unflag t'.run) rfl hmove)
  | @left _ t' _ _ _ => exact .inl (hset (s := m.system.leave t'.run) rfl hmove)
  | started _ =>
    have hused : number < m.system.tasks.length := (List.getElem?_eq_some_iff.mp ht).1
    refine .inl ?_
    show (m.system.enlist executor _).tasks[number]? = some t
    rw [System.getElem?_enlist, if_neg (Nat.ne_of_lt hused)]
    exact ht
  -- The shutdown aborts the tasks that were active, and whether this is one of them is left open.
  | aborted _ _ =>
    have habort : m.system.abortAll.2.tasks[number]? = _ :=
      System.getElem?_abortEach m.system.active.entries { m.system with active := ∅ } number
    change m.system.abortAll.2.tasks[number]? = some t ∨
      m.system.abortAll.2.tasks[number]? = some t.halted
    rw [habort]
    split
    · exact .inr (congrArg (Option.map Task.halted) ht)
    · exact .inl ht

/-- An outcome that is stored is the one that the task of the run was to store. -/
theorem Turn.storing (hturn : Turn executor m move (some (.stored number run outcome)) m') :
    ∃ t, m.system.tasks[number]? = some t ∧ t.run = run ∧ t.state = .storing outcome := by
  cases hturn with
  | stored there storing => exact ⟨_, there, rfl, storing⟩

/-- What a wait returns is what the table of outcomes holds. -/
theorem Turn.collecting {call : Nat} {returned : Option Outcome}
    (hturn : Turn executor m move (some (.collected call run returned)) m') :
    returned = m.system.outcome? run := by
  cases hturn with
  | collected _ => rfl

/-- A task does not perform its run any more, and if it is to store an outcome, it is one of some.
-/
def Destined (m : Machine) (number : Nat) (allowed : Outcome → Prop) : Prop :=
  ∃ t, m.system.tasks[number]? = some t ∧ t.state.performs = false ∧
    ∀ outcome, t.state = .storing outcome → allowed outcome

/-- A task that is over is to store nothing. -/
theorem destined_of_isOver (ht : m.system.tasks[number]? = some t) (hover : t.state.isOver = true)
    (allowed : Outcome → Prop) : m.Destined number allowed := by
  refine ⟨t, ht, Bool.eq_false_iff.mpr fun hperforms => ?_, fun outcome hstate => ?_⟩
  · rw [TaskState.isOver_of_performs hperforms] at hover
    cases hover
  · rw [hstate] at hover
    cases hover

variable {allowed : Outcome → Prop}

/-- What a task is to store does not change. -/
theorem Destined.turn (hturn : Turn executor m move d m') (h : m.Destined number allowed) :
    m'.Destined number allowed := by
  obtain ⟨t, ht, hperforms, hstoring⟩ := h
  -- In its own turn the task goes on with its wrapping up; in those of others it is left alone or
  -- aborted.
  by_cases hmove : move = .task number
  · have hset : ∀ {s : System} {t' : Task} {state : TaskState}, s.tasks = m.system.tasks →
        m.system.tasks[number]? = some t' → state.performs = false →
        (∀ other, state ≠ .storing other) →
        Destined { m with system := s.setTask number state } number allowed := by
      intro s t' state htasks ht' hstate hother
      refine ⟨{ t' with state }, ?_, hstate, fun other hsame => absurd hsame (hother other)⟩
      show (s.setTask number state).tasks[number]? = _
      rw [System.getElem?_setTask, if_pos rfl, htasks, ht']
      rfl
    cases hturn with
    | still _ _ | called _ _ _ _ => exact ⟨t, ht, hperforms, hstoring⟩
    -- It does not perform its run any more.
    | ran there running _ | finished there running _ =>
      cases hmove
      rw [ht] at there
      cases there
      rw [running] at hperforms
      cases hperforms
    | stored there _ =>
      cases hmove
      exact hset rfl there rfl fun _ => nofun
    | unflagged there _ =>
      cases hmove
      exact hset rfl there rfl fun _ => nofun
    | left there _ _ =>
      cases hmove
      exact hset rfl there rfl fun _ => nofun
    | _ => cases hmove
  · rcases hturn.bystander ht hmove with hsame | hhalted
    · exact ⟨t, hsame, hperforms, hstoring⟩
    · exact destined_of_isOver hhalted t.isOver_halted allowed

/-- A task that does not perform its run takes nothing. -/
theorem takings_of_destined (executor : Executor) {m : Machine} (h : m.Destined number allowed)
    (moves : List Move) : takings executor number m moves = .none := by
  induction moves generalizing m with
  | nil => rfl
  -- The induction is on the moves to come; each leaves the task with nothing more to take.
  | cons move later ih =>
    have hlater := ih (h.turn (m.turn_step executor move))
    -- What others take does not count, and in its own turns the task leaves the world alone.
    cases hown : turnsTo number move with
    | false => exact (takings_other executor m hown).trans hlater
    | true =>
      cases eq_of_turnsTo hown
      obtain ⟨t, ht, hperforms, -⟩ := h
      have hworld : (m.step executor (.task number)).system.world = m.system.world := by
        refine world_stepTask fun t' ht' => ?_
        rw [ht] at ht'
        cases ht'
        exact hperforms
      rw [takings_own, hlater, hworld, Takings.append_none]
      exact World.meter.taken_self m.system.world

/-! ## What a task comes to -/

/-- A task that performs a run with a flag comes to an outcome: it is that of one of the ways in
which the rest of the run may end among others who spare it, and what the run takes then is what the
task takes. -/
def ComesTo (executor : Executor) (number : Nat) (run : String) (flag : Nat) (m : Machine)
    (resume : World → Paused World Failure Summary) (moves : List Move) (outcome : Outcome) :
    Prop :=
  ∃ found u result, m.system.world.Spared run flag found ∧
    (resume found).Ends World.meter (World.Spared run flag) found
      (takings executor number m moves) u result ∧
    outcome = .ofResult result

variable {flag : Nat} {later : List Move} {resume resume' : World → Paused World Failure Summary}

/-- The move of someone who spares a run leaves open what it comes to. -/
theorem ComesTo.other (hown : turnsTo number move = false)
    (hspared : m.system.world.Spared run flag (m.step executor move).system.world)
    (h : (m.step executor move).ComesTo executor number run flag resume later outcome) :
    m.ComesTo executor number run flag resume (move :: later) outcome := by
  obtain ⟨found, u, result, hfound, hends, houtcome⟩ := h
  refine ⟨found, u, result, hspared.trans hfound, ?_, houtcome⟩
  rw [takings_other executor m hown]
  exact hends

/-- A turn in which a task does nothing leaves open what it comes to. -/
theorem ComesTo.idle (hstep : m.step executor (.task number) = m)
    (h : m.ComesTo executor number run flag resume later outcome) :
    m.ComesTo executor number run flag resume (.task number :: later) outcome := by
  have htakings : takings executor number m (.task number :: later) =
      takings executor number m later := by
    have hnothing : m.system.world.taken m.system.world = .none :=
      World.meter.taken_self m.system.world
    rw [takings_own, hstep, hnothing, Takings.none_append]
  unfold ComesTo at h ⊢
  rwa [htakings]

/-- A task that has gone on up to a wait comes to what it comes to from there. -/
theorem ComesTo.ran {wait : Wait}
    (hstretch : resume m.system.world =
      .waiting (m.step executor (.task number)).system.world wait resume')
    (h : (m.step executor (.task number)).ComesTo executor number run flag resume' later outcome) :
    m.ComesTo executor number run flag resume (.task number :: later) outcome := by
  obtain ⟨found, u, result, hfound, hends, houtcome⟩ := h
  refine ⟨m.system.world, u, result, .refl _ _ _, ?_, houtcome⟩
  rw [takings_own, hstretch]
  exact .waiting hfound hends

/-- A task whose run has ended comes to what the run has come to. -/
theorem comesTo_of_finished {result : Except Failure Summary}
    (hstretch : resume m.system.world =
      .ended (m.step executor (.task number)).system.world result)
    (h : (m.step executor (.task number)).Destined number allowed) (run : String) (flag : Nat)
    (later : List Move) :
    m.ComesTo executor number run flag resume (.task number :: later) (.ofResult result) := by
  refine ⟨m.system.world, (m.step executor (.task number)).system.world, result, .refl _ _ _, ?_,
    rfl⟩
  rw [takings_own, takings_of_destined executor h, Takings.append_none, hstretch]
  exact .ended _ _ result

/-! ## Steady stores -/

/-- What a task gets from steady stores does not depend on when it asks them. Whoever has the same
stores and draws the same ids gets all that the task has taken. -/
theorem Peaceful.gives_takings {moves : List Move} (hkeeps : executor.KeepsStopping)
    (h : m.Peaceful executor) (hmoves : ∀ move ∈ moves, move.isWork = false) {s : Surroundings}
    (hsteady : s.backend.Steady) (hsame : s.backend = m.system.world.around.backend)
    (hids : s.draws.Gives (takings executor number m moves).ids) :
    s.Gives (takings executor number m moves) := by
  -- The ids are given by assumption, and a steady store gives each answer again.
  refine ⟨hids, hsteady.gives (fun a ha => ?_) s.asked⟩
  clear hids
  induction moves generalizing m with
  | nil => cases ha
  | cons move later ih =>
    have hmove : move.isWork = false := hmoves move List.mem_cons_self
    have honward := (h.regular hmove).toOnward
    have hrest := ih (h.step hkeeps hmove) (fun m hm => hmoves m (List.mem_cons_of_mem move hm))
      (hsame.trans honward.later.around.backend.symm)
    -- The answers that the task is given in its own turn are answers of the store, which is the
    -- same all the while.
    cases hown : turnsTo number move with
    | false =>
      rw [takings_other executor m hown] at ha
      exact hrest ha
    | true =>
      cases eq_of_turnsTo hown
      rw [takings_own] at ha
      -- Answers of this turn are looked up in the store as it is now, later ones as it will be.
      rcases List.mem_append.mp ha with hfirst | hlater
      · change a ∈ m.system.world.around.backend.answers _ _ at hfirst
        exact hsteady.of_mem_answers (hsame ▸ hfirst)
      · exact hrest hlater

end Machine

namespace Chronicle

variable {executor : Executor} {c : Chronicle} {number : Nat} {t : Task} {run : String}
  {outcome : Outcome} {moves : List Move}

/-- What is stored has been stored before, or was to be stored. -/
theorem stored_of_move {move : Move}
    (h : .stored number run outcome ∈ (c.move executor move).deeds) :
    .stored number run outcome ∈ c.deeds ∨
      ∃ t, c.machine.system.tasks[number]? = some t ∧ t.state = .storing outcome := by
  -- The deed is one of this move, and then the task was about to store, or it was there before.
  rcases List.mem_append.mp h with hnew | hold
  · have hturn := c.machine.turn_step executor move
    rw [Option.mem_toList.mp hnew] at hturn
    obtain ⟨t, ht, -, hstate⟩ := hturn.storing
    exact .inr ⟨t, ht, hstate⟩
  · exact .inl hold

/-- A task that does not perform its run stores only what it is to store. -/
theorem stored_of_destined {allowed : Outcome → Prop} (h : c.machine.Destined number allowed)
    (hbefore : ∀ run outcome, .stored number run outcome ∈ c.deeds → allowed outcome)
    (moves : List Move) (hstored : .stored number run outcome ∈ (c.run executor moves).deeds) :
    allowed outcome := by
  induction moves generalizing c with
  | nil => exact hbefore run outcome hstored
  -- From the point where its outcome is settled the task can store no other one.
  | cons move later ih =>
    refine ih (c := c.move executor move) (h.turn (c.machine.turn_step executor move))
      (fun run' outcome' hdeed => ?_) hstored
    rcases stored_of_move hdeed with hold | ⟨t, ht, hstate⟩
    · exact hbefore run' outcome' hold
    · obtain ⟨t', ht', -, hstoring⟩ := h
      rw [ht] at ht'
      cases ht'
      exact hstoring outcome' hstate

/-- What a task stores that performs its run now is what it comes to. -/
theorem comesTo_of_stored {wait : Wait} {resume : World → Paused World Failure Summary}
    (hkeeps : executor.KeepsStopping) (h : c.machine.Peaceful executor)
    (ht : c.machine.system.tasks[number]? = some t) (hrunning : t.state = .running wait resume)
    (hbefore : ∀ run outcome, .stored number run outcome ∉ c.deeds)
    (hmoves : ∀ move ∈ moves, move.isWork = false) (hcancel : .cancel t.run ∉ moves)
    (hstored : .stored number run outcome ∈ (c.run executor moves).deeds) :
    c.machine.ComesTo executor number t.run t.flag resume moves outcome := by
  -- The induction is on the moves to come, with the world, the task and what is left of its run
  -- generalized.
  induction moves generalizing c t wait resume with
  | nil => exact absurd hstored (hbefore run outcome)
  | cons move later ih =>
    have hwork : move.isWork = false := hmoves move List.mem_cons_self
    have hlater : ∀ move ∈ later, move.isWork = false :=
      fun m hm => hmoves m (List.mem_cons_of_mem move hm)
    have hcancel' : .cancel t.run ∉ later := fun hm => hcancel (List.mem_cons_of_mem move hm)
    have hnext : (c.move executor move).machine.Peaceful executor := h.step hkeeps hwork
    -- The task stores nothing in this move, for it performs its run.
    have hbefore' : ∀ run outcome, .stored number run outcome ∉ (c.move executor move).deeds := by
      intro run' outcome' hdeed
      rcases stored_of_move hdeed with hold | ⟨t', ht', hstate⟩
      · exact hbefore run' outcome' hold
      · rw [ht] at ht'
        cases ht'
        rw [hrunning] at hstate
        cases hstate
    -- Once the outcome is settled the task stores that one or none.
    have hdestined : ∀ {allowed : Outcome → Prop},
        (c.move executor move).machine.Destined number allowed → allowed outcome := fun hdestined =>
      stored_of_destined (c := c.move executor move) hdestined
        (fun run' outcome' hdeed => absurd hdeed (hbefore' run' outcome')) later hstored
    -- The move is another's or the task's own.
    cases hown : Machine.turnsTo number move with
    | false =>
      have hmove := Machine.ne_of_turnsTo hown
      have hperforms : t.state.performs = true :=
        TaskState.performs_iff.mpr ⟨wait, resume, hrunning⟩
      -- Others spare the run: nothing that it will read has changed when it goes on.
      rcases (c.machine.turn_step executor move).bystander ht hmove with hsame | hhalted
      · have hspared := h.spares hwork ht hperforms hmove
          fun hsame => hcancel (hsame ▸ List.mem_cons_self)
        exact .other hown hspared (ih hnext hsame hrunning hbefore' hlater hcancel' hstored)
      · -- A task that has been aborted stores nothing.
        exact (hdestined (Machine.destined_of_isOver hhalted t.isOver_halted fun _ => False)).elim
    | true =>
      cases Machine.eq_of_turnsTo hown
      -- In its own turn it waits on, or goes on to the next wait, or returns and is about to store.
      rcases Machine.stepTask_running ht hrunning with
        hstep | ⟨wait', resume', hstretch, htask⟩ | ⟨result, hstretch, htask⟩
      · -- The task cannot go on yet.
        have hmachine : (c.move executor (.task number)).machine = c.machine := hstep
        refine .idle hstep ?_
        have hrest := ih hnext (hmachine ▸ ht) hrunning hbefore' hlater hcancel' hstored
        rwa [hmachine] at hrest
      · have hrest := ih hnext htask rfl hbefore' hlater hcancel' hstored
        exact .ran hstretch hrest
      · let allowed (other : Outcome) : Prop := other = .ofResult result
        have hends : (c.move executor (.task number)).machine.Destined number allowed :=
          ⟨_, htask, rfl, fun other hother => (TaskState.storing.inj hother).symm⟩
        rw [show outcome = .ofResult result from hdestined hends]
        exact Machine.comesTo_of_finished hstretch hends t.run t.flag later

end Chronicle

end RunParams
