import RunParams.Proofs.Scheduler.Custody

/-!
# Whose context a run discards

A run that comes to its end discards its context, and a shutdown discards the contexts of the runs
that it has aborted. Both go by the id of the run. So what disappears is what was opened last under
the id (`drops_last`), which may be someone else's: after the context of the run was discarded by
others, another one can be created under its id, and while a shutdown waits for the tasks that it
has aborted, their runs can be started anew (`discards_other`).

Where neither happens, what disappears is the run's own (`discardsOwn_of_tended`): every live
context that a task has opened belongs to the last task of its id, and so does every run that is
performed or was aborted (`Ledger.Held`, `Machine.Clears`).
-/

namespace RunParams

variable {executor : Executor} {settings : RunnerSettings} {world : World}

/-! ## What is discarded on behalf of a run -/

/-- After some moves, the run with an id that a party performs comes to its end by a further one. -/
inductive Ends (executor : Executor) (settings : RunnerSettings) (world : World)
    (before : List Move) : Move → Party → String → Prop
  /-- The run of a task. -/
  | task {number : Nat} {t : Task} {wait : Wait} {resume : World → Paused World Failure Summary}
    {outcome : Outcome} {run : String}
    (there : (Machine.after executor settings world before).system.tasks[number]? = some t)
    (own : t.run = run) (running : t.state = .running wait resume)
    (ended : (Machine.after executor settings world
      (before ++ [.task number])).system.tasks[number]? =
        some { t with state := .storing outcome }) :
    Ends executor settings world before (.task number) (.task number) run
  /-- A run on its own. -/
  | call {first rest : List Move} {number flag : Nat} {input : RunInput} {wait : Wait}
    {resume : World → Paused World BindingError Unit} {result : Except BindingError Unit}
    (began : before = first ++ .work (input.alone executor flag) :: rest)
    (begun : number = (Machine.after executor settings world first).calls.length)
    (working : (Machine.after executor settings world before).calls[number]? =
      some (.working wait resume))
    (ended : (Machine.after executor settings world (before ++ [.call number])).calls[number]? =
      some (.worked result)) :
    Ends executor settings world before (.call number) (.call number) input.run

/-- After some moves, a shutdown discards by a further one the context under an id on behalf of the
task that it has aborted. -/
inductive Retires (executor : Executor) (settings : RunnerSettings) (world : World)
    (before : List Move) : Move → Party → String → Prop
  | task (early : List Move) {call number : Nat} {aborted : List (String × Nat)} {run : String}
    {rest : List String} (earlier : early <+: before)
    (joining : (Machine.after executor settings world early).calls[call]? =
      some (.joining aborted))
    (mem : (run, number) ∈ aborted)
    (there : (Machine.after executor settings world before).calls[call]? =
      some (.discarding (run :: rest))) :
    Retires executor settings world before (.call call) (.task number) run

/-- After some moves, an entry of the live contexts disappears by a further one. -/
def Drops (executor : Executor) (settings : RunnerSettings) (world : World) (before : List Move)
    (move : Move) (run : String) (entry : Entry) : Prop :=
  (Machine.after executor settings world before).system.world.live.get? run = some entry ∧
    (Machine.after executor settings world (before ++ [move])).system.world.live.get? run ≠
      some entry

/-- After some moves, what disappears by a further one on behalf of a party, because the run of the
party has come to its end or because a shutdown has aborted it, is a context that the party has
opened. -/
def DiscardsOwn (executor : Executor) (settings : RunnerSettings) (world : World)
    (before : List Move) (move : Move) : Prop :=
  ∀ party run, Ends executor settings world before move party run ∨
      Retires executor settings world before move party run →
    ∀ other entry, Drops executor settings world before move other entry →
      ⟨party, other, entry.context⟩ ∈ (Ledger.after executor settings world before).opened

namespace Machine

variable {m m' : Machine} {d : Option Deed} {number : Nat}

/-- The turn in which a task comes to the end of its run is the last stretch of it. -/
theorem Turn.ended (hturn : Turn executor m (.task number) d m') {t : Task} {wait : Wait}
    {resume : World → Paused World Failure Summary} {outcome : Outcome}
    (hthere : m.system.tasks[number]? = some t) (hrunning : t.state = .running wait resume)
    (hover : m'.system.tasks[number]? = some { t with state := .storing outcome }) :
    ∃ result, resume m.system.world = .ended m'.system.world result := by
  -- A task that stores an outcome does not perform its run any more, so this turn has changed the
  -- tasks.
  have hsame : m'.system.tasks ≠ m.system.tasks := by
    intro htasks
    rw [htasks, hthere] at hover
    have hstate := congrArg Task.state (Option.some.inj hover)
    rw [hrunning] at hstate
    cases hstate
  cases hturn with
  | still _ _ | called _ _ _ _ => exact absurd rfl hsame
  -- These are turns of a task whose run is over already, and the run of this one is under way.
  | stored there storing | unflagged there storing | left there storing _ =>
    rw [hthere] at there
    cases there
    rw [hrunning] at storing
    cases storing
  -- A task whose run has only gone on still performs it.
  | @ran _ _ there _ _ _ world _ _ _ =>
    rw [hthere] at there
    cases there
    rcases System.task_of_setTask (s := m.system.withWorld world) hthere hover with
      ⟨-, hfound⟩ | ⟨hne, -⟩
    · cases congrArg Task.state hfound
    · exact absurd rfl hne
  -- What is left is the turn in which the run returns.
  | finished there running stretch =>
    rw [hthere] at there
    cases there
    rw [hrunning] at running
    cases running
    exact ⟨_, stretch⟩

/-- The turn in which a call comes to the end of its work is the last stretch of it. -/
theorem ended_of_worked {wait : Wait} {resume : World → Paused World BindingError Unit}
    {result : Except BindingError Unit} (hthere : m.calls[number]? = some (.working wait resume))
    (hover : (m.step executor (.call number)).calls[number]? = some (.worked result)) :
    ∃ result, resume m.system.world =
      .ended (m.step executor (.call number)).system.world result := by
  have hstep : m.step executor (.call number) =
      if World.isOver wait m.system.world then m.worked number (resume m.system.world) else m := by
    simp only [step, stepCall, hthere]
  rw [hstep] at hover ⊢
  -- A call that cannot go on yet is still at work afterwards.
  by_cases hwait : World.isOver wait m.system.world = true
  · rw [if_pos hwait] at hover ⊢
    rw [worked_eq] at hover ⊢
    rcases call_of_goOn hthere hover with ⟨-, hstate⟩ | ⟨hne, -⟩
    · -- It has done a stretch of its work, and it would still be at work if that had ended in a
      -- wait.
      cases hstretch : resume m.system.world with
      | ended world result => exact ⟨result, rfl⟩
      | waiting world wait' resume' =>
        rw [hstretch] at hstate
        cases hstate
    · exact absurd rfl hne
  · rw [if_neg hwait, hthere] at hover
    cases hover

end Machine

section Discards

variable {before moves : List Move} {move : Move} {party : Party} {run : String}

/-- When the run of a party comes to its end, the party does what a run does in its last stretch,
and has opened the context that the run has then. -/
theorem Ends.leaves (h : Ends executor settings world before move party run)
    (hworld : world.live = ∅) (hbefore : ∀ program, .work program ∈ before → program.Orderly) :
    ∃ flag q, Claims party run (Ledger.after executor settings world before).opened q ∧
      Leaves executor.KeepsStopping run flag q
        (Machine.after executor settings world before).system.world
        (Machine.after executor settings world (before ++ [move])).system.world := by
  have hright := right_after executor settings hworld hbefore
  cases h with
  -- The phase of a task that performs its run is known of every state that can be reached.
  | @task number t wait resume outcome _ there own running ended =>
    subst own
    rw [← Ledger.machine_after] at there
    obtain ⟨q, hq, hclaims⟩ :=
      hright.charged number t there (TaskState.performs_iff.mpr ⟨wait, resume, running⟩)
    rw [Ledger.machine_after] at there
    rw [Machine.after_concat] at ended ⊢
    obtain ⟨result, hstretch⟩ :=
      (Machine.turn_step executor _ (.task number)).ended there running ended
    exact ⟨t.flag, q, hclaims, hq.finished running hstretch⟩
  -- A run on its own is a call, begun by a move among those before. From there on its phase is
  -- followed through the moves that came after.
  | @call first rest number flag input wait resume result began begun working ended =>
    subst began
    have hfirst : (Ledger.after executor settings world first).Right executor :=
      right_after executor settings hworld fun program hmem =>
        hbefore program (List.mem_append_left _ hmem)
    have hnext : ∀ program, .work program ∈ .work (input.alone executor flag) :: rest →
        program.Orderly := fun program hmem => hbefore program (List.mem_append_right first hmem)
    have hperforms := (hfirst.performs input flag).moves
      (hfirst.move fun program hprogram => hnext program (hprogram ▸ List.mem_cons_self))
      fun program hmem => hnext program (List.mem_cons_of_mem _ hmem)
    have hafter : (((Ledger.after executor settings world first).move executor
        (.work (input.alone executor flag))).run executor rest) =
        Ledger.after executor settings world (first ++ .work (input.alone executor flag) :: rest) :=
      (Ledger.after_append executor settings world first
        (.work (input.alone executor flag) :: rest)).symm
    rw [hafter, Ledger.machine_after, ← begun] at hperforms
    -- The call is waiting still, so a phase goes with what is left of its run.
    have hphased := hperforms.phased wait resume
    rw [Ledger.machine_after] at hphased
    obtain ⟨q, hclaims, hrest⟩ := hphased working
    rw [Machine.after_concat] at ended ⊢
    obtain ⟨result, hstretch⟩ := Machine.ended_of_worked working ended
    have hfollows := hrest (Machine.after executor settings world
      (first ++ .work (input.alone executor flag) :: rest)).system.world
    rw [hstretch] at hfollows
    exact ⟨flag, q, hclaims, hfollows⟩

/-- A shutdown discards the context under an id and nothing else. -/
theorem Retires.live (h : Retires executor settings world before move party run) :
    (Machine.after executor settings world (before ++ [move])).system.world.live =
      (Machine.after executor settings world before).system.world.live.erase run := by
  obtain ⟨-, -, -, -, there⟩ := h
  rw [Machine.after_concat]
  simp only [Machine.step, Machine.stepCall, there, Machine.stepShutdown]
  exact Registry.live_discardNow run _

/-- What is discarded on behalf of a party stands under the id of its run, and is what was opened
last under that id. When the run has come to its end, the party has opened a context under the id.
-/
theorem drops_last (hworld : world.live = ∅)
    (hbefore : ∀ program, .work program ∈ before → program.Orderly)
    (h : Ends executor settings world before move party run ∨
      Retires executor settings world before move party run) {other : String} {entry : Entry}
    (hdrops : Drops executor settings world before move other entry) :
    other = run ∧
      (∀ opener,
        ⟨opener, run, entry.context⟩ ∈ (Ledger.after executor settings world before).opened ↔
          lastOpener (Ledger.after executor settings world before).opened run = some opener) ∧
      (Ends executor settings world before move party run → ∃ number,
        ⟨party, run, number⟩ ∈ (Ledger.after executor settings world before).opened) := by
  obtain ⟨hentry, hgone⟩ := hdrops
  have hright := right_after executor settings hworld hbefore
  -- A discard by id drops the entry of this id and of no other, so the entry that is gone is its.
  have herased : ∀ {run : String},
      (Machine.after executor settings world (before ++ [move])).system.world.live =
        (Machine.after executor settings world before).system.world.live.erase run →
      other = run := by
    intro run hlive
    rw [hlive, KeyMap.get?_erase] at hgone
    by_cases hother : other = run
    · exact hother
    · rw [if_neg hother] at hgone
      exact absurd hentry hgone
  -- An entry that is live is the one that was opened last under its id.
  have hlast : other = run → ∀ opener,
      ⟨opener, run, entry.context⟩ ∈ (Ledger.after executor settings world before).opened ↔
        lastOpener (Ledger.after executor settings world before).opened run = some opener := by
    rintro rfl
    rw [← Ledger.machine_after] at hentry
    exact hright.accounted.mem_iff hentry
  -- A run that never opened a context does not touch what is live, and here an entry is gone.
  have hends : Ends executor settings world before move party run → other = run ∧
      ∃ number, ⟨party, run, number⟩ ∈ (Ledger.after executor settings world before).opened := by
    intro hends
    obtain ⟨flag, q, hclaims, hleaves⟩ := hends.leaves hworld hbefore
    rcases hleaves.live with ⟨-, hlive⟩ | ⟨hown, hlive⟩
    · rw [hlive] at hgone
      exact absurd hentry hgone
    · obtain ⟨number, hnumber⟩ := Option.ne_none_iff_exists'.mp hown
      exact ⟨herased hlive, number, (hclaims number).mpr hnumber⟩
  -- A run discards when it ends, a shutdown when it tidies up; both go by the id of the run.
  rcases h with h | h
  · exact ⟨(hends h).1, hlast (hends h).1, fun _ => (hends h).2⟩
  · have hother := herased h.live
    exact ⟨hother, hlast hother, fun h => (hends h).2⟩

end Discards

/-! ## While only tasks open contexts -/

namespace Ledger

variable {l : Ledger}

/-- A live context that a task has opened belongs to the last task of its id, and that task performs
its run, or a shutdown is going to discard the context. -/
def Held (l : Ledger) : Prop :=
  ∀ run entry number, l.machine.system.world.live.get? run = some entry →
    ⟨.task number, run, entry.context⟩ ∈ l.opened → l.machine.LastOf run number ∧
      ((∃ t, l.machine.system.tasks[number]? = some t ∧ t.state.performs = true) ∨
        ∃ (call : Nat) (state : CallState), l.machine.calls[call]? = some state ∧
          run ∈ state.pending)

/-- Where no run is entered while a shutdown is on its way, every live context that a task has
opened is held. -/
theorem Held.move {next : Move} (hright : l.Right executor) (hlatest : l.machine.Latest)
    (hmove : ∀ program, next = .work program → program.Orderly)
    (henters : l.machine.clearing = true → l.machine.entered? next = none) (h : l.Held) :
    (l.move executor next).Held := by
  have hturn := Machine.turn_step executor l.machine next
  have hlatest' := hlatest.turn hturn hright.sound
  intro run entry number hentry hmem
  change (l.machine.step executor next).system.world.live.get? run = some entry at hentry
  -- An opening of this very move was made by a task that is performing its run.
  rcases List.mem_append.mp hmem with hnew | hold
  · obtain ⟨-, t, ht, rfl, hperforms⟩ := hright.inCustody_opening hnew
    exact ⟨hlatest' number t ht (TaskState.isOver_of_performs hperforms), .inl ⟨t, ht, hperforms⟩⟩
  · -- An older opening was held before the move, as the context was live already.
    obtain ⟨hlast, hheld⟩ := h run entry number (hright.live_before hmove hold hentry) hold
    obtain ⟨t', ht', hrun⟩ := hlast.there
    -- The last task of the id may be named in two ways here, by its number and by its run.
    have hcustody : l.machine.InCustody run number := by
      refine hheld.imp_left ?_
      rintro ⟨t, ht, hperforms⟩
      have hsame : t = t' := Option.some.inj (ht.symm.trans ht')
      exact ⟨t, ht, hsame ▸ hrun, hperforms⟩
    -- To enter a run would make another task the last one of the id. While the run is performed it
    -- is active, and while a shutdown is to tidy it up no run is entered.
    have henter : l.machine.entered? next ≠ some run := by
      rcases hcustody with ⟨t, ht, rfl, hperforms⟩ | ⟨call, state, hcall, hpending⟩
      · exact hright.sound.entered?_ne ht (TaskState.isOver_of_performs hperforms) next
      · rw [henters (Machine.clearing_of_call hcall (CallState.clears_of_pending hpending))]
        nofun
    refine ⟨hlast.turn hturn henter, (hright.inCustody_move hold hentry hcustody).imp_left ?_⟩
    rintro ⟨t, ht, -, hperforms⟩
    exact ⟨t, ht, hperforms⟩

/-- What holds after all moves that begin only orderly work, where no run is entered while a
shutdown is on its way. -/
structure Tended (executor : Executor) (l : Ledger) : Prop where
  right : l.Right executor
  latest : l.machine.Latest
  joined : l.machine.Joined
  held : l.Held

/-- A ledger is tended after moves that begin only orderly work, if no run is entered while a
shutdown is on its way. -/
theorem tended_after (executor : Executor) (settings : RunnerSettings) {moves : List Move}
    (hworld : world.live = ∅)
    (hmoves : ∀ program, .work program ∈ moves → program.Orderly)
    (henters : ∀ before move, before ++ [move] <+: moves →
      (Machine.after executor settings world before).clearing = true →
      (Machine.after executor settings world before).entered? move = none) :
    (after executor settings world moves).Tended executor := by
  -- All parts of the invariant are carried along at once, as each of them needs the others before a
  -- move.
  refine Machine.foldl_induction (P := fun l : Ledger => l.Tended executor)
    ⟨right_start executor settings hworld, nofun, nofun, fun _ _ _ _ => nofun⟩ ?_
  intro before next hnext h
  change (after executor settings world before).Tended executor at h
  have hwork : ∀ program, next = .work program → program.Orderly := fun program hprogram =>
    hmoves program (hprogram ▸ hnext.subset (List.mem_append_right before List.mem_cons_self))
  have hclearing := henters before next hnext
  rw [← machine_after] at hclearing
  have hturn := Machine.turn_step executor
    (after executor settings world before).machine next
  exact ⟨h.right.move hwork, h.latest.turn hturn h.right.sound,
    h.joined.turn hturn h.right.sound h.latest hclearing,
    h.held.move h.right h.latest hwork hclearing⟩

/-- What was opened stays in the account. -/
theorem mem_opened_of_prefix {before moves : List Move} {o : Opening} (hbefore : before <+: moves)
    (ho : o ∈ (after executor settings world before).opened) :
    o ∈ (after executor settings world moves).opened := by
  obtain ⟨later, rfl⟩ := hbefore
  rw [after_append]
  exact Machine.foldl_induction (P := fun l : Ledger => o ∈ l.opened) ho
    fun _ _ _ h => List.mem_append_right _ h

end Ledger

/-- While only tasks open contexts and no run is entered while a shutdown is on its way, what
disappears on behalf of a run is what the run has opened. -/
theorem discardsOwn_of_tended {before moves : List Move} {move : Move} (hworld : world.live = ∅)
    (hmoves : ∀ program, .work program ∈ moves → program.Orderly)
    (htasks : ∀ o ∈ (Ledger.after executor settings world moves).opened,
      ∃ number, o.party = .task number)
    (henters : ∀ before move, before ++ [move] <+: moves →
      (Machine.after executor settings world before).clearing = true →
      (Machine.after executor settings world before).entered? move = none)
    (hbefore : before ++ [move] <+: moves) : DiscardsOwn executor settings world before move := by
  intro party run hparty other entry hdrops
  have hearlier : before <+: moves := (List.prefix_append before [move]).trans hbefore
  have hwork : ∀ program, .work program ∈ before → program.Orderly :=
    fun program hmem => hmoves program (hearlier.subset hmem)
  have htended := Ledger.tended_after executor settings hworld hwork
    fun earlier next hnext => henters earlier next (hnext.trans hearlier)
  obtain ⟨rfl, hlast, hopened⟩ := drops_last hworld hwork hparty hdrops
  -- The context was opened by a task, the last one of its id.
  have hentry : (Ledger.after executor settings world before).machine.system.world.live.get? other =
      some entry := by
    rw [Ledger.machine_after]
    exact hdrops.1
  obtain ⟨opener, hopener⟩ := htended.right.accounted.last other entry hentry
  have hmem := List.mem_of_find?_eq_some hopener
  obtain ⟨number, rfl⟩ := htasks _ (Ledger.mem_opened_of_prefix hearlier hmem)
  have hheld := (htended.held other entry number hentry hmem).1
  rw [Ledger.machine_after] at hheld
  -- So is the task for which it is discarded.
  suffices hsame : ∃ mine, party = .task mine ∧
      (Machine.after executor settings world before).LastOf other mine by
    obtain ⟨mine, rfl, hmine⟩ := hsame
    rw [hmine.unique hheld]
    exact hmem
  rcases hparty with hends | hretires
  · -- The run that ends is performed, so its task is the last one of the id.
    cases hends with
    | @task mine t wait resume outcome _ there own running ended =>
      subst own
      have hperforms : t.state.performs = true := TaskState.performs_iff.mpr ⟨wait, resume, running⟩
      have hlatest := htended.latest
      rw [Ledger.machine_after] at hlatest
      exact ⟨mine, rfl, hlatest mine t there (TaskState.isOver_of_performs hperforms)⟩
    -- A run on its own has opened no context: all that are opened are opened by tasks.
    | @call first rest mine flag input wait resume result began begun working ended =>
      obtain ⟨mine', hmine⟩ := hopened (.call began begun working ended)
      obtain ⟨task, htask⟩ := htasks _ (Ledger.mem_opened_of_prefix hearlier hmine)
      cases htask
  · cases hretires with
    -- From the moment the shutdown joins its tasks, the task that it tidies up stays the last one
    -- of the id, for no run is entered before the shutdown ends.
    | @task early call mine aborted _ rest earlier joining mem there =>
      refine ⟨mine, rfl, ?_⟩
      obtain ⟨later, rfl⟩ := earlier
      have hearly : (Ledger.after executor settings world early).Tended executor :=
        Ledger.tended_after executor settings hworld
          (fun program hmem => hwork program (List.mem_append_left later hmem))
          fun earlier next hnext =>
            henters earlier next (hnext.trans ((List.prefix_append early later).trans hearlier))
      have hjoined := hearly.joined
      rw [Ledger.machine_after] at hjoined
      have hclears : ((Machine.after executor settings world early).run executor later).Clears call
          other mine := by
        refine Machine.run_induction (P := fun m => m.Clears call other mine)
          ⟨_, joining, .inl ⟨rfl, hjoined call aborted joining other mine mem⟩⟩ ?_
        intro between next hnext h
        refine h.turn (Machine.turn_step executor _ next) ?_
        have hafter := henters (early ++ between) next (by
          rw [List.append_assoc]
          exact ((List.prefix_append_right_inj early).mpr hnext).trans hearlier)
        rwa [Machine.after_append] at hafter
      rw [← Machine.after_append] at hclears
      -- In the end the shutdown has come to this task, so it is no longer among those that it waits
      -- for.
      obtain ⟨state, hstate, hclears⟩ := hclears
      rw [there] at hstate
      cases hstate
      exact (hclears.resolve_right nofun).2

/-- Whatever the order of starts, waits, turns of tasks, requests to stop runs, sweeps, shutdowns
and other orderly work: what disappears because a run has come to its end, or because a shutdown has
aborted it, stands under the id of the run. It is what the run has opened just if the run was the
last to open a context under the id; a run that comes to its end has opened one.

So a run loses no context but its own, and nobody else loses one to it, as long as only tasks open
contexts and no run is entered between the moment when a shutdown aborts the active runs and its
end. -/
theorem discards_own_iff (executor : Executor) (settings : RunnerSettings) {world : World}
    (hworld : world.live = ∅) {moves : List Move}
    (hmoves : ∀ program, .work program ∈ moves → program.Orderly) :
    (∀ before move, before ++ [move] <+: moves → ∀ party run,
      Ends executor settings world before move party run ∨
        Retires executor settings world before move party run →
      ∀ other entry, Drops executor settings world before move other entry →
        other = run ∧
        (Ends executor settings world before move party run → ∃ number,
          ⟨party, run, number⟩ ∈ (Ledger.after executor settings world before).opened) ∧
        (⟨party, run, entry.context⟩ ∈ (Ledger.after executor settings world before).opened ↔
          lastOpener (Ledger.after executor settings world before).opened run = some party)) ∧
    ((∀ o ∈ (Ledger.after executor settings world moves).opened,
        ∃ number, o.party = .task number) →
      (∀ before move, before ++ [move] <+: moves →
        (Machine.after executor settings world before).clearing = true →
        (Machine.after executor settings world before).entered? move = none) →
      ∀ before move, before ++ [move] <+: moves →
        DiscardsOwn executor settings world before move) := by
  constructor
  · -- The first part follows from what disappears at all; who has opened it does not matter.
    intro before move hbefore party run hparty other entry hdrops
    have hearlier : before <+: moves := (List.prefix_append before [move]).trans hbefore
    obtain ⟨hother, hlast, hends⟩ := drops_last hworld
      (fun program hmem => hmoves program (hearlier.subset hmem)) hparty hdrops
    exact ⟨hother, hends, hlast party⟩
  · -- For the second part the whole of what is kept in order is needed.
    intro htasks henters before move hbefore
    exact discardsOwn_of_tended hworld hmoves htasks henters hbefore

/-- What holds of each place in a list holds of each of its beginnings and what comes next. -/
theorem forall_of_prefix {α : Type} {P : List α → α → Prop} {xs : List α}
    (h : ∀ i : Fin xs.length, P (xs.take i) xs[i]) (before : List α) (x : α)
    (hbefore : before ++ [x] <+: xs) : P before x := by
  obtain ⟨rest, rfl⟩ := hbefore
  have hless : before.length < (before ++ [x] ++ rest).length := by
    rw [List.append_assoc, List.length_append, List.length_append, List.length_singleton]
    omega
  have hplace := h ⟨before.length, hless⟩
  simpa using hplace

/-- A run is aborted by a shutdown and, when that has come to its end, started anew. Each of the two
tasks loses its own context. -/
theorem discards_own_iff_restart :
    let world : World := .start .standard (Memory.backend .empty) default
    let input : RunInput := ⟨"r", ⟨"acme", none⟩, ⟨[], [], [], [], [⟨"fetch", [], none⟩]⟩, ∅⟩
    let moves : List Move := [.start input, .call 0, .call 0] ++ List.replicate 3 (.task 0) ++
      [.work (Registry.Request.contains "r").alone, .call 1, .shutdown] ++
      List.replicate 5 (.call 2) ++ [.start input, .call 3, .call 3] ++ List.replicate 5 (.task 1)
    (Ledger.after echo .standard world moves).opened = [⟨.task 1, "r", 1⟩, ⟨.task 0, "r", 0⟩] ∧
      (Machine.after echo .standard world moves).system.world.live.get? "r" = none ∧
      ∀ before move, before ++ [move] <+: moves →
        DiscardsOwn echo .standard world before move := by
  refine ⟨rfl, rfl, ?_⟩
  refine (discards_own_iff echo .standard rfl ?_).2 ?_ ?_
  · intro program hmem
    have hprogram : program = (Registry.Request.contains "r").alone := by simpa using hmem
    rw [hprogram]
    exact Registry.Request.orderly_alone _
  · intro o ho
    change o ∈ [⟨.task 1, "r", 1⟩, ⟨.task 0, "r", 0⟩] at ho
    simp only [List.mem_cons, List.not_mem_nil, or_false] at ho
    rcases ho with rfl | rfl
    · exact ⟨1, rfl⟩
    · exact ⟨0, rfl⟩
  · exact forall_of_prefix (by decide)

/-- While a run is performed its context is discarded by someone else, who then creates another one
with its id: when the run comes to its end it discards that one. And a run is started anew while a
shutdown waits for the task of the first one to end: the shutdown discards, on behalf of that task,
which has opened nothing, the context that the second one is using. -/
theorem discards_other :
    let world : World := .start .standard (Memory.backend .empty) default
    let organization : Organization := ⟨"acme", none⟩
    let input : RunInput := ⟨"r", organization, ⟨[], [], [], [], [⟨"fetch", [], none⟩]⟩, ∅⟩
    let ending : List Move := [.start input, .call 0, .call 0] ++ List.replicate 3 (.task 0) ++
      [.work (Registry.Request.discard "r").alone, .call 1,
        .work (Registry.Request.create "r" organization ⟨[], [], [], []⟩).alone, .call 2, .call 2,
        .task 0]
    let shutdown : List Move := [.start input, .call 0, .call 0, .shutdown, .call 1, .start input,
      .call 2, .call 2] ++ List.replicate 3 (.task 1) ++ [.call 1]
    ((Ledger.after echo .standard world ending).opened = [⟨.call 2, "r", 1⟩, ⟨.task 0, "r", 0⟩] ∧
        ¬ DiscardsOwn echo .standard world ending (.task 0)) ∧
      (Ledger.after echo .standard world shutdown).opened = [⟨.task 1, "r", 0⟩] ∧
        ¬ DiscardsOwn echo .standard world shutdown (.call 1) := by
  refine ⟨⟨rfl, fun howns => ?_⟩, rfl, fun howns => ?_⟩
  · have hmem := howns (.task 0) "r" (.inl (.task rfl rfl rfl rfl)) "r" ⟨1, 2⟩ ⟨rfl, nofun⟩
    change (⟨.task 0, "r", 1⟩ : Opening) ∈ [⟨.call 2, "r", 1⟩, ⟨.task 0, "r", 0⟩] at hmem
    revert hmem
    decide
  · have hmem := howns (.task 0) "r"
      (.inr (.task [.start _, .call 0, .call 0, .shutdown, .call 1] ⟨_, rfl⟩ rfl
        List.mem_cons_self rfl)) "r" ⟨0, 1⟩ ⟨rfl, nofun⟩
    change (⟨.task 0, "r", 0⟩ : Opening) ∈ [⟨.task 1, "r", 0⟩] at hmem
    revert hmem
    decide

end RunParams
