import RunParams.Proofs.Scheduler.Leftovers
import RunParams.Proofs.Scheduler.Takings

/-!
# A run in a task comes to what it comes to alone

The outcome that a task stores is that of one of the ways in which its run may end among others who
spare it. And a run repeats itself: alone, and given what the task has taken, it ends with the same
result (`Chronicle.stored_as_alone`). What a wait returns was stored by a task of the run
(`Chronicle.Vouched`). So a wait that collects the outcome of the task returns what the run alone
comes to (`Chronicle.collected_as_alone`), whatever other runs, sweeps and waits do in between.
-/

namespace RunParams

open Program

/-- An outcome tells of a result: it is finished with the summary, or failed with the text of the
failure. -/
structure Outcome.Tells (outcome : Outcome) (result : Except Failure Summary) : Prop where
  finished : ∀ summary, outcome = .finished summary ↔ result = .ok summary
  failed : ∀ text, outcome = .failed text ↔
    ∃ failure, result = .error failure ∧ failure.message = text

/-- The outcome with a result tells of the result. -/
theorem Outcome.tells_ofResult (result : Except Failure Summary) :
    (Outcome.ofResult result).Tells result := by
  -- What an outcome tells of a result is the summary or the text of the failure, and no two of
  -- these are the same.
  cases result with
  | ok summary =>
    refine ⟨fun s => ⟨fun h => ?_, fun h => ?_⟩, fun text => ⟨nofun, fun ⟨_, h, _⟩ => nomatch h⟩⟩
    · exact congrArg Except.ok (Outcome.finished.inj h)
    · exact congrArg Outcome.finished (Except.ok.inj h)
  | error failure =>
    refine ⟨fun _ => ⟨nofun, nofun⟩,
      fun text => ⟨fun h => ⟨failure, rfl, Outcome.failed.inj h⟩, ?_⟩⟩
    rintro ⟨_, h, htext⟩
    rw [← Except.error.inj h] at htext
    exact congrArg Outcome.failed htext

/-- An executor that leaves alone whether its run is asked to stop does not take it back. -/
theorem Executor.Computes.keepsStopping {executor : Executor}
    {answer : Step → Context → Except Mishap Json} (h : executor.Computes answer) :
    executor.KeepsStopping :=
  fun step context => (h.stopping step context).mono fun _ _ hsame hraised => hsame.trans hraised

/-- Stores in memory are steady. -/
theorem Memory.steady_backend (memory : Memory) : memory.backend.Steady := fun _ _ => rfl

namespace Chronicle

variable {executor : Executor} {c : Chronicle} {number : Nat} {t : Task} {run : String}
  {outcome : Outcome} {moves : List Move}

/-! ## What waits return -/

/-- Every task was started with its run, and what a wait has returned was stored by a task of the
run. -/
structure Vouched (c : Chronicle) : Prop where
  started : ∀ (number : Nat) t, c.machine.system.tasks[number]? = some t →
    .started number t.run ∈ c.deeds
  stored : ∀ number run outcome, .stored number run outcome ∈ c.deeds →
    ∃ t, c.machine.system.tasks[number]? = some t ∧ t.run = run
  collected : ∀ call run outcome, .collected call run (some outcome) ∈ c.deeds →
    ∃ number, .stored number run outcome ∈ c.deeds

/-- What was stored was stored by a task that was started with the run. -/
theorem Vouched.started_of_stored (h : c.Vouched) (hstored : .stored number run outcome ∈ c.deeds) :
    .started number run ∈ c.deeds := by
  obtain ⟨t, ht, rfl⟩ := h.stored number run outcome hstored
  exact h.started number t ht

/-- What holds before a move holds after it, when the table of outcomes is told by the deeds. -/
theorem Vouched.step (h : c.Vouched) {dropped : Prop}
    (htold : Told dropped c.machine.system c.deeds) (move : Move) :
    (c.move executor move).Vouched := by
  have hturn := c.machine.turn_step executor move
  -- Three things are vouched for: that each task has started, that each outcome was stored by a
  -- task of its run, and that each outcome collected was stored.
  refine ⟨fun number t' ht' => ?_, fun number run outcome hstored => ?_,
    fun call run outcome hcollected => ?_⟩
  · -- A task was there before and has been started then, or it is the one that this deed tells of.
    rcases hturn.task ht' with ⟨t, ht, hrun, -, -⟩ |
      ⟨call, input, rfl, hlisting, rfl, hrun, -, -⟩
    · rw [hrun]
      exact List.mem_append_right _ (h.started number t ht)
    · have hdeed : c.machine.deed? (.call call) =
          some (.started c.machine.system.tasks.length input.run) := by
        show c.machine.callDeed? call = _
        unfold Machine.callDeed?
        rw [hlisting]
      rw [hrun]
      exact List.mem_append_left _ (Option.mem_toList.mpr hdeed)
  · -- Tasks keep their runs, so a task that has stored for this run is still one of this run.
    have hstays : ∀ {t : Task}, c.machine.system.tasks[number]? = some t → t.run = run →
        ∃ t', (c.machine.step executor move).system.tasks[number]? = some t' ∧ t'.run = run := by
      intro t ht hrun
      obtain ⟨t', ht', hrun', -⟩ := hturn.task_stays ht
      exact ⟨t', ht', hrun'.trans hrun⟩
    rcases List.mem_append.mp hstored with hnew | hold
    · rw [Option.mem_toList.mp hnew] at hturn
      obtain ⟨t, ht, hrun, -⟩ := hturn.storing
      exact hstays ht hrun
    · obtain ⟨t, ht, hrun⟩ := h.stored number run outcome hold
      exact hstays ht hrun
  · -- An outcome that was collected in this move stood in the table; others were collected before.
    rcases List.mem_append.mp hcollected with hnew | hold
    · rw [Option.mem_toList.mp hnew] at hturn
      -- What a wait returns stands in the table, so it was stored last.
      have hheld : standing run c.deeds = some outcome := by
        rcases htold run with hsame | ⟨-, hnone⟩
        · exact hsame.symm.trans hturn.collecting.symm
        · rw [← hturn.collecting] at hnone
          cases hnone
      obtain ⟨number, since, ⟨⟨earlier, hdeeds⟩, -⟩, -⟩ := storedLast_of_standing hheld
      refine ⟨number, List.mem_append_right _ ?_⟩
      rw [hdeeds]
      exact List.mem_append_right since List.mem_cons_self
    · obtain ⟨number, hstored⟩ := h.collected call run outcome hold
      exact ⟨number, List.mem_append_right _ hstored⟩

/-- After any moves, what a wait has returned was stored by a task of the run. -/
theorem vouched_run (executor : Executor) (settings : RunnerSettings) (world : World)
    (moves : List Move) : ((start settings world).run executor moves).Vouched := by
  let Holds (c : Chronicle) : Prop := Ledger True c ∧ c.Vouched
  have hstart : Holds (start settings world) :=
    ⟨⟨Machine.sound_ofWorld settings world, nofun, fun _ => .inl rfl, fun _ _ _ _ => trivial⟩,
      nofun, fun _ _ _ h => absurd h List.not_mem_nil, fun _ _ _ h => absurd h List.not_mem_nil⟩
  -- Both are carried along together, since what was collected is looked up in a table that the
  -- ledger tells of.
  have hall : Holds ((start settings world).run executor moves) :=
    Machine.foldl_induction hstart fun _ move _ h =>
      ⟨h.1.step fun _ => trivial, h.2.step h.1.told move⟩
  exact hall.2

/-! ## The outcome of a run -/

/-- The settings of the world are those at the beginning. -/
theorem settings_run (hkeeps : executor.KeepsStopping) (settings : RunnerSettings) {world : World}
    (hworld : world.Labelled) (hmoves : ∀ move ∈ moves, move.isWork = false) :
    ((start settings world).run executor moves).machine.system.world.settings = world.settings := by
  rw [machine_run]
  let Keeps (m : Machine) : Prop :=
    m.Peaceful executor ∧ m.system.world.settings = world.settings
  have hall : Keeps ((Machine.ofWorld settings world).run executor moves) := by
    refine Machine.run_induction ⟨Machine.peaceful_ofWorld executor settings hworld, rfl⟩
      fun before move hbefore h => ?_
    have hmove : move.isWork = false :=
      hmoves move (hbefore.subset (List.mem_append_right before List.mem_cons_self))
    exact ⟨h.1.step hkeeps hmove, (h.1.regular hmove).settings.trans h.2⟩
  exact hall.2

/-- A call that is about to enter a run in the table of active runs starts it in a task. -/
theorem move_listing (executor : Executor) {call : Nat} {input : RunInput}
    (hlisting : c.machine.calls[call]? = some (.listing input)) :
    (c.move executor (.call call)).machine =
      { c.machine with holder := none }.goOn call (.started c.machine.system.tasks.length)
        (c.machine.system.enlist executor input) := by
  show c.machine.stepCall executor call = _
  unfold Machine.stepCall Machine.stepStart
  simp only [hlisting]

variable {answer : Step → Context → Except Mishap Json} {before later : List Move} {call flag : Nat}
  {input : RunInput} {settings : RunnerSettings} {world w : World}

/-- What a task stores for a run that was started in it, when the run has no live context then and
nobody asks it to stop, tells of the result of the run alone, given what the task has taken. -/
theorem stored_as_alone (hcomputes : executor.Computes answer) (hworld : world.Labelled)
    (hbefore : ∀ move ∈ before, move.isWork = false) (hlater : ∀ move ∈ later, move.isWork = false)
    (hc : c = (start settings world).run executor before)
    (hlisting : c.machine.calls[call]? = some (.listing input))
    (habsent : c.machine.system.world.live.get? input.run = none)
    (hcancel : .cancel input.run ∉ later) {took : Takings}
    (htook : took = Machine.takings executor c.machine.system.tasks.length
      (c.move executor (.call call)).machine later)
    (hsettings : w.settings = world.settings) (hfree : w.live.get? input.run = none)
    (hlowered : w.flagged flag = false) (hgives : w.around.Gives took)
    (hdates : IgnoresDates answer ∨ ∀ date ∈ took.dates, date = w.calendar + 1)
    (hstored : .stored c.machine.system.tasks.length run outcome ∈
      ((c.move executor (.call call)).run executor later).deeds) :
    outcome = .ofResult ((input.perform executor flag w).alone World.pass).1 := by
  have hkeeps := hcomputes.keepsStopping
  have hpeaceful : c.machine.Peaceful executor := by
    rw [hc, machine_run]
    exact Machine.peaceful_after hkeeps hbefore settings hworld
  have hmachine := move_listing executor hlisting
  have hnext : (c.machine.step executor (.call call)).Peaceful executor := hpeaceful.step hkeeps rfl
  let number := c.machine.system.tasks.length
  let own := c.machine.system.world.flags.length
  -- The task that has just been started has stored nothing.
  have hunstored : ∀ run outcome,
      .stored number run outcome ∉ (c.move executor (.call call)).deeds := by
    -- A deed of a task before it was there cannot be: old deeds are by old tasks, and the move
    -- itself only starts it.
    intro run outcome hdeed
    rcases stored_of_move hdeed with hold | ⟨t, ht, -⟩
    · have hvouched : c.Vouched := hc ▸ vouched_run executor settings world before
      obtain ⟨t, ht, -⟩ := hvouched.stored _ run outcome hold
      exact Nat.lt_irrefl _ (List.getElem?_eq_some_iff.mp ht).1
    · exact Nat.lt_irrefl _ (List.getElem?_eq_some_iff.mp ht).1
  -- The task begins with a run from its very first turn.
  have htask : (c.move executor (.call call)).machine.system.tasks[number]? =
      some ⟨input.run, own, .running .turn (input.perform executor own)⟩ := by
    rw [hmachine]
    show (c.machine.system.enlist executor input).tasks[number]? = _
    rw [System.getElem?_enlist, if_pos rfl]
  -- What the task comes to is told by a world that spares the run, and by what it takes from then
  -- on.
  obtain ⟨found, u, result, hfound, hends, rfl⟩ :=
    comesTo_of_stored hkeeps hnext htask rfl hunstored hlater hcancel hstored
  rw [hmachine] at hfound
  change World.Spared input.run own c.machine.system.world.addFlag.2 found at hfound
  -- Its flag is new and not raised.
  have hown : c.machine.system.world.addFlag.2.flagged own = false := by
    show (c.machine.system.world.flags ++ [false]).getD own false = false
    rw [List.getD_eq_getElem?_getD, List.getElem?_concat_length]
    rfl
  -- Settings never change, so the run alone may be given those from the beginning.
  have hsame : w.settings = found.settings := by
    have hkept : c.machine.system.world.settings = world.settings :=
      hc ▸ settings_run hkeeps settings hworld hbefore
    exact hsettings.trans (hkept.symm.trans hfound.settings.symm)
  -- Alone the run is given what it has taken here, so it ends alike.
  rw [← htook] at hends
  exact congrArg Outcome.ofResult (RunInput.repeats_perform hcomputes (hfound.absent habsent)
    (hfound.lowered hown) hends hfree hlowered hsame hgives hdates
    (Paused.canEnd_alone World.pass World.leftAlone_pass _)).symm

/-- Whatever other runs, sweeps and waits do: when a run is started that has no live context, and
nobody asks it to stop, then what a wait returns for it tells of the result of the run alone, given
the ids and the answers that the task has got. The executor sees nothing but the step and the
context; if it looks at the date of the context, the run alone has the same date.

The run alone also enumerates the dependents of an output as the run in the task does
(`Store.dependents`), which shows when an error names one of them.

When other runs have other ids, this holds of every outcome that a wait has returned. Otherwise it
holds of the outcome that the task has stored. A wait that collects while this one was stored last
returns what is in the table of outcomes, and that is the outcome, unless another wait has returned
since, or outcomes may have been dropped. -/
theorem collected_as_alone (hcomputes : executor.Computes answer) (hworld : world.Labelled)
    (hbefore : ∀ move ∈ before, move.isWork = false) (hlater : ∀ move ∈ later, move.isWork = false)
    (hc : c = (start settings world).run executor before)
    (hlisting : c.machine.calls[call]? = some (.listing input))
    (habsent : c.machine.system.world.live.get? input.run = none)
    (hcancel : .cancel input.run ∉ later) {took : Takings}
    (htook : took = Machine.takings executor c.machine.system.tasks.length
      (c.move executor (.call call)).machine later)
    (hsettings : w.settings = world.settings) (hfree : w.live.get? input.run = none)
    (hlowered : w.flagged flag = false) (hgives : w.around.Gives took)
    (hdates : IgnoresDates answer ∨ ∀ date ∈ took.dates, date = w.calendar + 1) :
    let task := c.machine.system.tasks.length
    let result := ((input.perform executor flag w).alone World.pass).1
    let d := (c.move executor (.call call)).run executor later
    ((∀ other, .started other input.run ∈ d.deeds → other = task) →
      ∀ waiter told, .collected waiter input.run (some told) ∈ d.deeds → told.Tells result) ∧
    ∀ waiter outcome since, d.machine.calls[waiter]? = some (.collecting input.run) →
      StoredLast input.run task outcome since d.deeds →
      let held := d.machine.system.outcome? input.run
      outcome.Tells result ∧
        (d.move executor (.call waiter)).machine.calls[waiter]? =
          some (.collected input.run held) ∧
        (held = some outcome ∨ held = none ∧
          ((∃ other found, .collected other input.run found ∈ since) ∨
            ∃ move ∈ before ++ .call call :: later, move.drops = true)) := by
  intro task result d
  -- Whatever the task has stored for the run tells of the result that the run has alone.
  have htells : ∀ outcome, .stored task input.run outcome ∈ d.deeds → outcome.Tells result := by
    intro outcome hstored
    have hsame : outcome = .ofResult result := stored_as_alone hcomputes hworld hbefore hlater hc
      hlisting habsent hcancel htook hsettings hfree hlowered hgives hdates hstored
    rw [hsame]
    exact Outcome.tells_ofResult result
  -- The history is one list of moves, so everything that is known of whole histories applies to it.
  have hrun : d = (start settings world).run executor (before ++ .call call :: later) := by
    show later.foldl (Chronicle.move executor) (c.move executor (.call call)) =
      (before ++ .call call :: later).foldl (Chronicle.move executor) (start settings world)
    rw [List.foldl_append, hc]
    rfl
  refine ⟨fun honly waiter told hcollected => ?_, fun waiter outcome since hcollecting hlast => ?_⟩
  · -- Any outcome collected was stored by some task of the run, and this one is the only one
    -- started.
    have hvouched : d.Vouched := hrun ▸ vouched_run executor settings world _
    obtain ⟨other, hstored⟩ := hvouched.collected waiter input.run told hcollected
    rw [honly other (hvouched.started_of_stored hstored)] at hstored
    exact htells told hstored
  · -- The ledger says whether what was stored last stands, was collected, or may have been dropped.
    have hledger : Ledger (∃ move ∈ before ++ .call call :: later, move.drops = true) d :=
      hrun ▸ ledger_run executor settings world _
    have hstored : .stored task input.run outcome ∈ d.deeds := by
      obtain ⟨⟨earlier, hdeeds⟩, -⟩ := hlast
      rw [hdeeds]
      exact List.mem_append_right since List.mem_cons_self
    refine ⟨htells outcome hstored, (move_collecting executor hcollecting).2, ?_⟩
    show d.machine.system.outcome? input.run = some outcome ∨ _
    -- The table says what the deeds say, unless something was dropped.
    rcases hledger.told input.run with hstands | ⟨hdropped, hnone⟩
    · rw [hstands]
      rcases hlast.stands_or with hsome | ⟨hnone, hcollected⟩
      · exact .inl hsome
      · exact .inr ⟨hnone, .inl hcollected⟩
    · exact .inr ⟨hnone, .inr hdropped⟩

/-- What a wait has returned for a run. -/
def returned? (run : String) : Deed → Option Outcome
  | .collected _ other (some outcome) => if other = run then some outcome else none
  | _ => none

/-- What was returned for a run was returned by a wait for it. -/
theorem of_returned {d : Deed} (h : returned? run d = some outcome) :
    ∃ waiter, d = .collected waiter run (some outcome) := by
  cases d with
  | collected waiter other returned =>
    -- Only collecting returns anything, and only for its own run.
    cases returned with
    | none => cases h
    | some told =>
      change (if other = run then some told else none) = some outcome at h
      by_cases hother : other = run
      · rw [if_pos hother] at h
        cases h
        exact ⟨waiter, by rw [hother]⟩
      · rw [if_neg hother] at h
        cases h
  | started _ _ | finished _ _ | stored _ _ _ | awaited _ _ => cases h

/-- Whether a deed starts a run with an id in another task. -/
def startsElse (run : String) (task : Nat) : Deed → Bool
  | .started other started => started = run && other ≠ task
  | _ => false

/-- Two runs with a credential share a process. While the first one is on its way, the other one
draws the first ids, and a sweep discards the context of the first run. The wait for it returns what
the run comes to alone when it draws the ids that come next. -/
theorem collected_as_alone_expired :
    let settings : RunnerSettings := ⟨.standard, .seconds 0, .seconds 60⟩
    let stores := Memory.empty.addPassword "site" "acme" ⟨"alice", "hunter2", none⟩
    let world (next : Nat) : World := .start .standard stores.backend ⟨.random, next⟩
    let login : SecretParameter := .credential (.ofId "login" "site")
    let input (run : String) : RunInput :=
      ⟨run, ⟨"acme", none⟩, ⟨[], [], [], [login], [⟨"fetch", [login.toParameter], none⟩]⟩, ∅⟩
    let c := (start settings (world 0)).run echo [.start (input "r"), .call 0]
    let later : List Move := [.start (input "s"), .call 1, .call 1] ++
      List.replicate 9 (.task 1) ++ List.replicate 3 (.task 0) ++ [.sweep, .call 2, .call 2] ++
      List.replicate 9 (.task 0) ++ [.wait "r", .call 3, .call 3]
    let d := (c.move echo (.call 0)).run echo later
    .contextExpired "r" ∈ d.machine.system.world.around.log ∧
      ∃ waiter told, .collected waiter "r" (some told) ∈ d.deeds ∧
        told.Tells (((input "r").perform echo 0 (world 2)).alone World.pass).1 := by
  intro settings stores world login input c later d
  let before : List Move := [.start (input "r"), .call 0]
  let took := Machine.takings echo 0 (c.move echo (.call 0)).machine later
  have hlabelled : (world 0).Labelled := fun run entry hentry => nomatch hentry
  have hbefore : ∀ move ∈ before ++ [.call 0], move.isWork = false := by decide
  have hlater : ∀ move ∈ later, move.isWork = false := by decide
  have hkeeps := echo_computes.keepsStopping
  have hpeaceful : (c.move echo (.call 0)).machine.Peaceful echo :=
    Machine.peaceful_after hkeeps hbefore settings hlabelled
  -- The run alone starts with the second id. The ids that the task takes are those that are left.
  have hgives : (world 2).around.Gives took :=
    hpeaceful.gives_takings hkeeps hlater stores.steady_backend rfl (by decide +kernel)
  -- The sweep has found the context of the run too old while the run was waiting.
  have hexpired : .contextExpired "r" ∈ d.machine.system.world.around.log := by decide +kernel
  obtain ⟨told, htold⟩ : ∃ told, d.deeds.findSome? (returned? "r") = some told :=
    Option.isSome_iff_exists.mp (by decide +kernel)
  -- No other run was started under this id.
  have honly : ∀ other, .started other "r" ∈ d.deeds → other = 0 := by
    have hall : d.deeds.all (fun e => !startsElse "r" 0 e) = true := by decide +kernel
    intro other hmem
    have hnot := List.all_eq_true.mp hall _ hmem
    simpa [startsElse] using hnot
  have hc : c = (start settings (world 0)).run echo before := rfl
  have hlisting : c.machine.calls[0]? = some (.listing (input "r")) := rfl
  have habsent : c.machine.system.world.live.get? "r" = none := rfl
  have hcancel : .cancel "r" ∉ later := by simp [later]
  have htook : took = Machine.takings echo c.machine.system.tasks.length
      (c.move echo (.call 0)).machine later := rfl
  have hsettings : (world 2).settings = (world 0).settings := rfl
  have hfree : (world 2).live.get? "r" = none := rfl
  have hlowered : (world 2).flagged 0 = false := rfl
  obtain ⟨htells, -⟩ := collected_as_alone echo_computes hlabelled
    (fun move hmove => hbefore move (List.mem_append_left _ hmove)) hlater hc hlisting habsent
    hcancel htook hsettings hfree hlowered hgives (.inl fun _ _ _ => rfl)
  obtain ⟨deed, hdeed, hreturned⟩ := List.exists_of_findSome?_eq_some htold
  obtain ⟨waiter, rfl⟩ := of_returned hreturned
  exact ⟨hexpired, waiter, told, hdeed, htells honly waiter told hdeed⟩

end Chronicle

end RunParams
