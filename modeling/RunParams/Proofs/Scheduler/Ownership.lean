import RunParams.Proofs.Scheduler.Openings

/-!
# Runs and the contexts that they have opened

A run is performed by a task, or on its own by a call. The phase that it is in says which context it
has; by the account of a `Ledger` that is the context which its party has opened, and it has opened
no other one (`Claims`). `Ledger.Right` says so of all tasks that perform their runs, along with
what the account needs, and `Ledger.Performs` of a call that performs a run on its own. Both hold
after all moves that begin only orderly work.
-/

namespace RunParams

variable {executor : Executor} {settings : RunnerSettings} {world : World}

/-! ## What a party has opened -/

/-- A party that performs a run has opened the context that it has in a phase, and no other one. -/
def Claims (party : Party) (run : String) (opened : List Opening) (q : Phase) : Prop :=
  ∀ number, ⟨party, run, number⟩ ∈ opened ↔ q.own = some number

section Claims

variable {party other : Party} {run : String} {opened : List Opening} {q q' : Phase}
  {w w' : World} {insists : Prop} {flag : Nat} {wait : Wait}

/-- What others open makes no difference to what a party has opened. -/
theorem Claims.of_ne (h : Claims party run opened q) (hother : other ≠ party) :
    Claims party run (openingsBy other (w.gained w') ++ opened) q := by
  intro number
  rw [List.mem_append, ← h number]
  refine or_iff_right fun hmem => ?_
  exact hother (mem_openingsBy.mp hmem).1.symm

/-- Where nothing is made live a party opens nothing. -/
theorem Claims.of_live_eq (h : Claims party run opened q) (hfiled : w.Filed)
    (hlive : w'.live = w.live) : Claims party run (openingsBy other (w.gained w') ++ opened) q := by
  intro number
  rw [List.mem_append, ← h number]
  -- Nothing is gained where nothing has become live, so the openings are the same.
  refine or_iff_right fun hmem => ?_
  obtain ⟨-, entry, hentry, -⟩ := mem_openingsBy.mp hmem
  have hnone : (w.gained w').get? run = none := hfiled.not_gained (congrArg (·.get? run) hlive)
  rw [hnone] at hentry
  cases hentry

/-- A party that performs its run up to the next wait has opened the context that it has then. -/
theorem Claims.stretch (h : Claims party run opened q) (hfiled : w.Filed)
    (hstep : Stretch insists run flag q w w' wait q') :
    Claims party run (openingsBy party (w.gained w') ++ opened) q' := by
  -- A stretch of a run leaves the registry as it is, or it makes the context of the run live.
  rcases hstep.progress.live with ⟨hown, hlive⟩ | ⟨hnone, number, hown, hgains⟩
  · intro number
    rw [hown]
    exact h.of_live_eq hfiled hlive number
  · obtain ⟨createdAt, hlive⟩ := hgains.live
    have hgained : (w.gained w').get? run = some ⟨number, createdAt⟩ := by
      refine World.get?_gained.mpr ⟨?_, hgains.unused⟩
      rw [hlive, KeyMap.get?_insert, if_pos rfl]
    -- Before this stretch the run had opened nothing, so what it has opened is this one.
    intro other
    rw [hown, List.mem_append, mem_openingsBy, h other, hnone]
    constructor
    · rintro (⟨-, entry, hentry, hnumber⟩ | hopened)
      · change (w.gained w').get? run = some entry at hentry
        rw [hgained] at hentry
        cases hentry
        exact congrArg some hnumber.symm
      · cases hopened
    · intro hother
      cases hother
      exact .inl ⟨rfl, _, hgained, rfl⟩

end Claims

/-- A party has begun its work. -/
def Party.IsIn (m : Machine) : Party → Prop
  | .task number => number < m.system.tasks.length
  | .call number => number < m.calls.length

/-- No turn takes a call away. -/
theorem Machine.Turn.length_calls {m m' : Machine} {move : Move} {d : Option Deed}
    (hturn : Turn executor m move d m') : m.calls.length ≤ m'.calls.length := by
  have hgoOn : ∀ (number : Nat) (state : CallState) (system : System),
      m.calls.length ≤ (m.goOn number state system).calls.length :=
    fun _ _ _ => Nat.le_of_eq List.length_set.symm
  have hadd : ∀ state, m.calls.length ≤ (m.addCall state).calls.length := by
    intro state
    show m.calls.length ≤ (m.calls ++ [state]).length
    rw [List.length_append]
    exact Nat.le_add_right _ _
  -- Calls are never taken away: a turn adds one, changes one, or leaves them all.
  cases hturn with
  | still _ _ | raised _ _ | ran _ _ _ | finished _ _ _ | stored _ _ | unflagged _ _ | left _ _ _
  | pruned _ _ => exact Nat.le_refl _
  | called _ _ _ _ | began _ | awaited _ => exact hadd _
  | refused _ | slept _ _ | noticed _ _ | woken _ | collected _ | aborted _ _ | joined _
  | discarded _ | stripped _ | closed _ | read _ _ | expired _ _ | swept _ _ _ | worked _ =>
    exact hgoOn _ _ _
  | listed _ _ _ | started _ => exact hgoOn _ _ m.system

/-- Who has begun its work has done so for ever. -/
theorem Party.IsIn.turn {m m' : Machine} {move : Move} {d : Option Deed} {party : Party}
    (hturn : m.Turn executor move d m') (h : party.IsIn m) : party.IsIn m' := by
  cases party with
  | task number => exact Nat.lt_of_lt_of_le h hturn.length_tasks
  | call number => exact Nat.lt_of_lt_of_le h hturn.length_calls

/-- Who changes what is live has begun its work. -/
theorem Machine.Turn.mover_isIn {m m' : Machine} {move : Move} {d : Option Deed}
    (hturn : Turn executor m move d m') (hlive : m'.system.world.live ≠ m.system.world.live) :
    (m.mover move).IsIn m' := by
  have htask : ∀ {number : Nat} {t : Task} {s : System} {state : TaskState},
      s.tasks = m.system.tasks → m.system.tasks[number]? = some t →
      number < (s.setTask number state).tasks.length := by
    intro number t s state htasks there
    show number < (s.tasks.modify number _).length
    rw [List.length_modify, htasks]
    exact (List.getElem?_eq_some_iff.mp there).1
  have hcall : ∀ {number : Nat} {old state : CallState} {system : System},
      m.calls[number]? = some old → number < (m.goOn number state system).calls.length := by
    intro number old state system there
    show number < (m.calls.set number state).length
    rw [List.length_set]
    exact (List.getElem?_eq_some_iff.mp there).1
  cases hturn with
  -- If something has become live, the turn was a stretch of a run, of other work, or of a call, and
  -- whoever had that turn is in the machine.
  | still _ same | called same _ _ _ | read _ same | swept _ same _ | raised _ same =>
    exact absurd same.live hlive
  | awaited _ | stored _ _ | unflagged _ _ | left _ _ _ | refused _ | listed _ _ _ | slept _ _
  | noticed _ _ | woken _ | collected _ | joined _ | stripped _ | closed _ | pruned _ _
  | started _ => exact absurd rfl hlive
  | aborted _ _ => exact absurd (System.untouched_abortAll m.system).live hlive
  | began program =>
    show m.calls.length < (m.calls ++ [_]).length
    rw [List.length_append]
    exact Nat.lt_succ_self _
  | @ran number t there _ _ _ world _ _ _ => exact htask (s := m.system.withWorld world) rfl there
  | @finished number t there _ _ _ world _ _ =>
    exact htask (s := m.system.withWorld world) rfl there
  | discarded there => exact hcall there
  | expired there same => exact hcall there
  | worked there => exact hcall there

/-! ## What holds after all moves -/

namespace Ledger

variable {l : Ledger}

/-- What holds of a ledger whatever moves have been made, if all work is orderly. -/
structure Right (executor : Executor) (l : Ledger) : Prop where
  accounted : Accounted l.machine.system.world l.opened
  sound : l.machine.Sound
  works : l.machine.WorksOrderly
  /-- A task that performs its run is in a phase, and has opened the context that it has in it. -/
  charged : ∀ (number : Nat) t, l.machine.system.tasks[number]? = some t →
    t.state.performs = true →
    ∃ q, t.InPhase executor q ∧ Claims (.task number) t.run l.opened q
  known : ∀ o ∈ l.opened, o.party.IsIn l.machine

/-- What is not in a machine yet has opened nothing. -/
theorem Right.claims_opening (h : l.Right executor) {party : Party}
    (hparty : ¬ party.IsIn l.machine) (run : String) : Claims party run l.opened .opening := by
  refine fun number => ⟨fun hmem => absurd (h.known _ hmem) hparty, fun hown => ?_⟩
  cases hown

/-- Every task that performs its run is in a phase. -/
theorem Right.phased (h : l.Right executor) : l.machine.Phased executor := by
  intro number t ht hrunning
  obtain ⟨q, hq, -⟩ := h.charged number t ht hrunning
  exact ⟨q, hq⟩

/-- What holds before a move holds after it. -/
theorem Right.move {move : Move} (h : l.Right executor)
    (hmove : ∀ program, move = .work program → program.Orderly) :
    (l.move executor move).Right executor := by
  have hturn := Machine.turn_step executor l.machine move
  have hwork := hturn.orderly hmove h.phased h.works
  have hfiled := h.accounted.filed
  -- The first three parts follow from the turn alone. What each run claims, and that all openers
  -- are known, depends on who has had the turn.
  refine ⟨h.accounted.orderly hwork _, hturn.sound h.sound, h.works.turn hturn hmove,
    fun number found hfound hrunning => ?_, fun o ho => ?_⟩
  · -- A task that performs its run was left alone, has done a stretch, or is new.
    rcases hturn.running hfound hrunning with ⟨hthere, hstill⟩ |
      ⟨t, wait, resume, wait', resume', rfl, ht, hstate, hstretch, rfl⟩ |
      ⟨call, input, rfl, hcall, hnumber, rfl⟩
    · obtain ⟨q, hq, hclaims⟩ := h.charged number found hthere hrunning
      refine ⟨q, hq, ?_⟩
      -- Its own turn has changed nothing if it still waits, and the turns of others open nothing of
      -- its.
      by_cases hown : move = .task number
      · exact hclaims.of_live_eq hfiled (hstill hown).live
      · refine hclaims.of_ne fun hmover => ?_
        cases move with
        | task other => exact hown (congrArg Move.task (Party.task.inj hmover))
        | _ => cases hmover
    · obtain ⟨q, hq, hclaims⟩ :=
        h.charged number t ht (TaskState.performs_iff.mpr ⟨wait, resume, hstate⟩)
      obtain ⟨q', hstep, hq'⟩ := hq.ran hstate hstretch
      exact ⟨q', hq', hclaims.stretch hfiled hstep⟩
    · -- A new task has opened nothing, because nobody by its number was there to do so.
      have hnew : ¬ (Party.task number).IsIn l.machine :=
        fun hless => Nat.lt_irrefl number (hnumber ▸ hless)
      refine ⟨.opening, inPhase_enlist executor input _, ?_⟩
      exact (h.claims_opening hnew input.run).of_ne fun hmover => by cases hmover
  · -- An opening of this turn is by the one whose turn it was; an older one was known before.
    rcases List.mem_append.mp ho with ho | ho
    · obtain ⟨hparty, entry, hentry, -⟩ := mem_openingsBy.mp ho
      rw [hparty]
      refine hturn.mover_isIn fun hlive => ?_
      have hnone := hfiled.not_gained (congrArg (·.get? o.run) hlive)
      rw [hnone] at hentry
      cases hentry
    · exact (h.known o ho).turn hturn

/-- At the beginning nothing is live. -/
theorem right_start (executor : Executor) (settings : RunnerSettings) (hworld : world.live = ∅) :
    (start settings world).Right executor := by
  refine ⟨⟨nofun, nofun, fun run entry hentry => ?_⟩, Machine.sound_ofWorld settings world, nofun,
    nofun, nofun⟩
  change world.live.get? run = some entry at hentry
  rw [hworld] at hentry
  cases hentry

/-- What holds of a ledger holds after further moves. -/
theorem Right.moves {moves : List Move} (h : l.Right executor)
    (hmoves : ∀ program, .work program ∈ moves → program.Orderly) :
    (l.run executor moves).Right executor := by
  induction moves generalizing l with
  | nil => exact h
  -- Each move needs what the moves before it have established, so the ledger is generalized.
  | cons next rest ih =>
    refine ih (h.move fun program hnext => ?_) fun program hmem => ?_
    · exact hmoves program (hnext ▸ List.mem_cons_self)
    · exact hmoves program (List.mem_cons_of_mem next hmem)

/-! ## Runs on their own -/

/-- A call performs a run on its own: as long as it does so the run is in a phase, and the call has
opened the context that it has in it. -/
structure Performs (executor : Executor) (l : Ledger) (call : Nat) (input : RunInput)
    (flag : Nat) : Prop where
  begun : call < l.machine.calls.length
  phased : ∀ wait resume, l.machine.calls[call]? = some (.working wait resume) →
    ∃ q, Claims (.call call) input.run l.opened q ∧
      ∀ w, (resume w).Follows (Stretch executor.KeepsStopping input.run flag)
        (fun q a s _ => Leaves executor.KeepsStopping input.run flag q a s) q w

variable {call flag : Nat} {input : RunInput}

/-- A call that begins to perform a run on its own does so. -/
theorem Right.performs (h : l.Right executor) (input : RunInput) (flag : Nat) :
    (l.move executor (.work (input.alone executor flag))).Performs executor
      l.machine.calls.length input flag := by
  have hturn := Machine.turn_step executor l.machine
    (.work (input.alone executor flag))
  have hbegun : l.machine.calls.length <
      (l.machine.step executor (.work (input.alone executor flag))).calls.length := by
    show _ < (Machine.worked _ _ _).calls.length
    rw [Machine.worked_eq]
    show _ < ((l.machine.calls ++ [_]).set _ _).length
    rw [List.length_set, List.length_append]
    exact Nat.lt_succ_self _
  refine ⟨hbegun, fun wait resume hfound => ?_⟩
  -- The call was not there before its own beginning, so what is in progress has just begun.
  rcases hturn.working hfound with ⟨hfound, -⟩ | ⟨_, _, hmove, -⟩ | ⟨program, hmove, -, hstretch⟩
  · exact absurd (List.getElem?_eq_some_iff.mp hfound).1 (Nat.lt_irrefl _)
  · cases hmove
  · cases hmove
    have hfollows := input.follows_alone executor flag l.machine.system.world
    rw [hstretch] at hfollows
    obtain ⟨q, hstep, hrest⟩ := hfollows
    have hnew : ¬ (Party.call l.machine.calls.length).IsIn l.machine := Nat.lt_irrefl _
    exact ⟨q, (h.claims_opening hnew input.run).stretch h.accounted.filed hstep, hrest⟩

/-- A call that performs a run goes on to do so. -/
theorem Performs.move {next : Move} (hright : l.Right executor)
    (h : l.Performs executor call input flag) :
    (l.move executor next).Performs executor call input flag := by
  have hturn := Machine.turn_step executor l.machine next
  have hfiled := hright.accounted.filed
  refine ⟨Nat.lt_of_lt_of_le h.begun hturn.length_calls, fun wait' resume' hfound => ?_⟩
  -- As for tasks: the call has waited on, or has done a stretch of its run.
  rcases hturn.working hfound with ⟨hthere, hstill⟩ | ⟨wait, resume, rfl, hthere, hstretch⟩ |
    ⟨program, -, hnew, -⟩
  · obtain ⟨q, hclaims, hrest⟩ := h.phased wait' resume' hthere
    refine ⟨q, ?_, hrest⟩
    by_cases hown : next = .call call
    · exact hclaims.of_live_eq hfiled (hstill hown).live
    · refine hclaims.of_ne fun hmover => ?_
      have hbegun := h.begun
      cases next with
      -- Nobody else goes by the number of this call: tasks are other parties, and a new call comes
      -- after.
      | task other => cases hmover
      | call other => exact hown (congrArg Move.call (Party.call.inj hmover))
      | _ => exact absurd (Party.call.inj hmover) (Nat.ne_of_gt hbegun)
  · obtain ⟨q, hclaims, hrest⟩ := h.phased wait resume hthere
    have hfollows := hrest l.machine.system.world
    rw [hstretch] at hfollows
    obtain ⟨q', hstep, hrest'⟩ := hfollows
    exact ⟨q', hclaims.stretch hfiled hstep, hrest'⟩
  · exact absurd hnew (Nat.ne_of_lt h.begun)

/-- A call that performs a run does so after further moves. -/
theorem Performs.moves {moves : List Move} (hright : l.Right executor)
    (hmoves : ∀ program, .work program ∈ moves → program.Orderly)
    (h : l.Performs executor call input flag) :
    (l.run executor moves).Performs executor call input flag := by
  induction moves generalizing l with
  | nil => exact h
  | cons next rest ih =>
    refine ih (hright.move fun program hnext => ?_) (fun program hmem => ?_) (h.move hright)
    · exact hmoves program (hnext ▸ List.mem_cons_self)
    · exact hmoves program (List.mem_cons_of_mem next hmem)

end Ledger

end RunParams
