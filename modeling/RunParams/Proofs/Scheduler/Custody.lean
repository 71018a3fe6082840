import RunParams.Lookup.Memory
import RunParams.Proofs.Scheduler.Ownership
import RunParams.Proofs.Scheduler.Shutdowns

/-!
# Who answers for a live context

A task that comes to the end of its run discards its context. One that is aborted does not get
there, wherever it was on its way, so the shutdown that has aborted it has to discard what is live
under its id. A context that a task has opened is in custody (`Machine.InCustody`) while the task
performs its run or a shutdown is going to discard what is live under the id.

A turn hands the context over from the task to a shutdown, or nothing is live under the id after it
(`Ledger.Right.inCustody_move`). So every live context that a task has opened is in custody,
whatever the order of turns (`Ledger.kept_after`), and none is left behind
(`Ledger.active_or_pending_of_live`).
-/

namespace RunParams

variable {executor : Executor} {settings : RunnerSettings} {world : World}

namespace Machine

variable {m m' : Machine} {d : Option Deed} {number : Nat} {run : String} {entry : Entry}

/-- The task with a number performs its run, whose id is `run`, or a shutdown is going to discard
what is live under that id. -/
def InCustody (m : Machine) (run : String) (number : Nat) : Prop :=
  (∃ t, m.system.tasks[number]? = some t ∧ t.run = run ∧ t.state.performs = true) ∨
    ∃ (call : Nat) (state : CallState), m.calls[call]? = some state ∧ run ∈ state.pending

/-- A task by whose turn a context becomes live performs a run with the id of the context. -/
theorem Turn.gained (hturn : Turn executor m (.task number) d m') (hphased : m.Phased executor)
    (hfiled : m.system.world.Filed)
    (hgained : (m.system.world.gained m'.system.world).get? run = some entry) :
    ∃ t, m'.system.tasks[number]? = some t ∧ t.state.performs = true ∧ t.run = run := by
  -- Something new is live under the id, so the registry has changed there.
  have hnot : m'.system.world.live.get? run ≠ m.system.world.live.get? run := by
    intro hlive
    rw [hfiled.not_gained hlive] at hgained
    cases hgained
  cases hturn with
  | still _ same | called same _ _ _ => exact absurd (congrArg (·.get? run) same.live) hnot
  | stored _ _ | unflagged _ _ | left _ _ _ => exact absurd rfl hnot
  -- If the run has become live in this stretch, it goes on to the next wait and performs on.
  | @ran _ t there wait resume running world wait' resume' stretch =>
    obtain ⟨q, hq⟩ := hphased number t there (TaskState.performs_iff.mpr ⟨wait, resume, running⟩)
    obtain ⟨q', hstep, -⟩ := hq.ran running stretch
    refine ⟨{ t with state := .running wait' resume' }, ?_, rfl, ?_⟩
    · rw [System.getElem?_setTask, if_pos rfl]
      exact congrArg (Option.map _) there
    · -- The entry that is gained is that of the run, as a run makes live no other context.
      rcases hstep.progress.live with ⟨-, hlive⟩ | ⟨-, _, -, hgains⟩
      · exact absurd (congrArg (·.get? run) hlive) hnot
      · obtain ⟨createdAt, hlive⟩ := hgains.live
        refine Classical.byContradiction fun hrun => hnot ?_
        show world.live.get? run = _
        rw [hlive, KeyMap.get?_insert, if_neg fun h => hrun h.symm]
  | @finished _ t there wait resume running world result stretch =>
    -- In its last stretch a run makes nothing live.
    obtain ⟨q, hq⟩ := hphased number t there (TaskState.performs_iff.mpr ⟨wait, resume, running⟩)
    obtain ⟨hentry, -⟩ := World.get?_gained.mp hgained
    change world.live.get? run = some entry at hentry
    change world.live.get? run ≠ m.system.world.live.get? run at hnot
    -- At its end a run leaves the registry as it is or takes its own entry away.
    rcases (hq.finished running stretch).live with ⟨-, hlive⟩ | ⟨-, hlive⟩
    · exact absurd (congrArg (·.get? run) hlive) hnot
    · rw [hlive, KeyMap.get?_erase] at hnot hentry
      by_cases hrun : run = t.run
      · rw [if_pos hrun] at hentry
        cases hentry
      · rw [if_neg hrun] at hnot
        exact absurd rfl hnot

end Machine

/-- A ledger is right after all moves that begin only orderly work. -/
theorem right_after (executor : Executor) (settings : RunnerSettings) {moves : List Move}
    (hworld : world.live = ∅) (hmoves : ∀ program, .work program ∈ moves → program.Orderly) :
    (Ledger.after executor settings world moves).Right executor :=
  (Ledger.right_start executor settings hworld).moves hmoves

namespace Ledger

variable {l : Ledger} {next : Move} {run : String} {entry : Entry} {number : Nat}

/-! ## Custody from turn to turn -/

/-- What a task has opened by a move is in its own custody. -/
theorem Right.inCustody_opening (h : l.Right executor)
    (hmem : ⟨.task number, run, entry.context⟩ ∈ openingsBy (l.machine.mover next)
      (l.machine.system.world.gained (l.machine.step executor next).system.world)) :
    next = .task number ∧ ∃ t,
      (l.machine.step executor next).system.tasks[number]? = some t ∧ t.run = run ∧
        t.state.performs = true := by
  obtain ⟨hparty, entry', hgained, -⟩ := mem_openingsBy.mp hmem
  -- Calls are other parties, so it is the turn of the task itself.
  have hnext : next = .task number := by
    cases next with
    | task other => exact congrArg Move.task (Party.task.inj hparty).symm
    | _ => cases hparty
  subst hnext
  obtain ⟨t, ht, hperforms, hrun⟩ := (Machine.turn_step executor l.machine (.task number)).gained
    h.phased h.accounted.filed hgained
  exact ⟨rfl, t, ht, hrun, hperforms⟩

/-- What a task has opened stays in custody as long as it is live. -/
theorem Right.inCustody_move (h : l.Right executor)
    (hopened : ⟨.task number, run, entry.context⟩ ∈ l.opened)
    (hlive : (l.machine.step executor next).system.world.live.get? run = some entry)
    (hcustody : l.machine.InCustody run number) :
    (l.machine.step executor next).InCustody run number := by
  have hturn := Machine.turn_step executor l.machine next
  -- A context is in the hands of the task that performs its run, or of a shutdown that will come to
  -- its id.
  rcases hcustody with ⟨t, ht, rfl, hperforms⟩ | ⟨call, state, hcall, hpending⟩
  · obtain ⟨wait, resume, hrunning⟩ := TaskState.performs_iff.mp hperforms
    -- The task performs its run on, has come to the end of it, or was aborted.
    rcases hturn.performs ht hrunning with
      ⟨t', ht', hperforms'⟩ | ⟨result, hstretch⟩ | ⟨call, hcall⟩
    · obtain ⟨t'', ht'', hrun, -⟩ := hturn.task_stays ht
      rw [ht'] at ht''
      cases ht''
      exact .inl ⟨t', ht', hrun, hperforms'⟩
    · -- The run has come to its end and has taken its context along.
      obtain ⟨q, hq, hclaims⟩ := h.charged number t ht hperforms
      -- It had opened this context, so at its end it does discard one.
      rcases (hq.finished hrunning hstretch).live with ⟨hnone, -⟩ | ⟨-, herased⟩
      · have hown := (hclaims entry.context).mp hopened
        rw [hnone] at hown
        cases hown
      · rw [herased, KeyMap.get?_erase, if_pos rfl] at hlive
        cases hlive
    · -- The task was aborted, and the shutdown that did so has its id on its list.
      have hactive :=
        h.sound.paired.present number t ht (TaskState.isOver_of_performs hperforms)
      refine .inr ⟨call, _, hcall, List.mem_map.mpr ⟨(t.run, number), ?_, rfl⟩⟩
      exact Entries.mem_of_find hactive
  · -- The shutdown has the run on its list still, unless it has just discarded its context.
    rcases hturn.pending hcall hpending with hstill | herased
    · exact .inr ⟨call, hstill⟩
    · rw [herased, KeyMap.get?_erase, if_pos rfl] at hlive
      cases hlive

/-- What was opened before a move and is live after it was live before it. -/
theorem Right.live_before (h : l.Right executor)
    (hmove : ∀ program, next = .work program → program.Orderly) {party : Party}
    (hopened : ⟨party, run, entry.context⟩ ∈ l.opened)
    (hlive : (l.machine.step executor next).system.world.live.get? run = some entry) :
    l.machine.system.world.live.get? run = some entry := by
  have hwork := (Machine.turn_step executor l.machine next).orderly hmove h.phased h.works
  -- A context of this number was there before, so its entry has not been made in this move.
  have hused : entry.context < l.machine.system.world.contexts.length :=
    h.accounted.used _ hopened
  exact (hwork.live run entry hlive).resolve_right (Nat.not_le_of_lt hused)

/-- Every live context that a task has opened is in custody. -/
def Kept (l : Ledger) : Prop :=
  ∀ run entry number, l.machine.system.world.live.get? run = some entry →
    ⟨.task number, run, entry.context⟩ ∈ l.opened → l.machine.InCustody run number

/-- Every move that begins only orderly work leaves every live context that a task has opened in
custody. -/
theorem Kept.move (hright : l.Right executor)
    (hmove : ∀ program, next = .work program → program.Orderly) (h : l.Kept) :
    (l.move executor next).Kept := by
  intro run entry number hlive hmem
  -- A context opened in this move is in the hands of its opener; one opened before was live before,
  -- so it was in somebody's hands, and is so still.
  rcases List.mem_append.mp hmem with hnew | hold
  · exact .inl (hright.inCustody_opening hnew).2
  · exact hright.inCustody_move hold hlive
      (h run entry number (hright.live_before hmove hold hlive) hold)

end Ledger

end RunParams
