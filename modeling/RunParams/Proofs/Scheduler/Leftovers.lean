import RunParams.Proofs.Scheduler.Outcomes

/-!
# What a shutdown leaves of outcomes

A run that a shutdown has aborted stores no outcome. But the outcomes are kept by run id alone, and
neither the start of a run nor a shutdown touches them: when nobody has collected the outcome of an
earlier run with the id, it is still there.

`Chronicle.Told` says what the table of outcomes holds whatever moves are made: under a run id
stands what was stored last and not collected since, or nothing if it may have been dropped. With
that, `Chronicle.collected_after_abort` says what a wait returns for a run that was aborted.
-/

namespace RunParams

/-- Whether a call drops outcomes on its way. -/
def CallState.drops : CallState → Bool
  | sweeping | expiring _ | pruning => true
  | _ => false

/-- Whether a move drops outcomes, or calls for a sweep. -/
def Move.drops : Move → Bool
  | sweep | prune _ => true
  | _ => false

/-- Other work drops no outcomes. -/
theorem CallState.drops_ofPaused (p : Paused World BindingError Unit) :
    (CallState.ofPaused p).drops = false := by
  cases p with
  | waiting _ _ _ | ended _ _ => rfl

namespace Machine

variable {executor : Executor} {m : Machine} {move : Move}

/-- A task has nothing to do with the calls. -/
theorem calls_stepTask (m : Machine) (number : Nat) : (m.stepTask number).calls = m.calls := by
  unfold stepTask
  split
  · rfl
  · split
    · split
      · rfl
      · rfl
    · split
      · rfl
      · rfl
    · rfl

/-- Nobody begins to sweep, unless a move calls for it. -/
theorem drops_step (hmove : move.drops = false)
    (h : ∀ (number : Nat) state, m.calls[number]? = some state → state.drops = false) :
    ∀ (number : Nat) state, (m.step executor move).calls[number]? = some state →
      state.drops = false := by
  cases move with
  -- A call that is called now is at its start, and of these only a sweep ever drops outcomes.
  | start _ | wait _ | shutdown => exact forall_call_addCall h rfl
  | sweep | prune _ => cases hmove
  | cancel _ | tick _ => exact h
  -- Further work is in progress from its first turn on, or is over in it; neither drops.
  | work program =>
    show ∀ (number : Nat) state,
      ((m.addCall .swept).worked m.calls.length _).calls[number]? = some state → _
    rw [worked_eq, addCall_goOn]
    exact forall_call_addCall h (CallState.drops_ofPaused _)
  | task number =>
    show ∀ (number' : Nat) state, (m.stepTask number).calls[number']? = some state → _
    rw [calls_stepTask]
    exact h
  | call number =>
    have hturn := m.turn_step executor (.call number)
    generalize m.step executor (.call number) = after, m.deed? (.call number) = done at hturn
    cases hturn with
    | still _ _ => exact h
    -- A sweep is excluded by what is known of the move, so the new call shuts down or starts a run.
    | called same state new kind =>
      rcases new with rfl | rfl | ⟨input, rfl⟩
      · cases kind
      · cases kind
      · exact forall_call_addCall h rfl
    | refused there | listed there _ _ | started there | slept there _ | noticed there _
    | woken there | collected there | aborted there _ | joined there | discarded there
    | stripped there | closed there => exact forall_call_goOn h there rfl
    -- These turns are turns of a sweep, and there is none.
    | read there _ | expired there _ | swept there _ _ => exact absurd (h _ _ there) nofun
    | worked there => exact forall_call_goOn h there (CallState.drops_ofPaused _)

end Machine

namespace Chronicle

variable {executor : Executor} {m m' : Machine} {move : Move} {run : String}
  {task number : Nat} {outcome : Outcome} {since deeds : List Deed} {d : Deed} {dropped : Prop}

/-! ## Who was started last -/

/-- Who is active was started last. -/
def ActiveLast (s : System) (deeds : List Deed) : Prop :=
  ∀ run number, s.active.get? run = some number → lastStarted run deeds = some number

/-- Every turn leaves those active who were started last. -/
theorem ActiveLast.turn {done : Option Deed} (hturn : m.Turn executor move done m')
    (h : ActiveLast m.system deeds) : ActiveLast m'.system (done.toList ++ deeds) := by
  cases hturn with
  | still _ _ | raised _ _ | called _ _ _ _ | began _ | ran _ _ _ | unflagged _ _ | refused _
  | listed _ _ _ | slept _ _ | noticed _ _ | woken _ | joined _ | discarded _ | stripped _
  | closed _ | read _ _ | expired _ _ | worked _ | pruned _ _ | swept _ _ _ => exact h
  | awaited _ | finished _ _ _ | stored _ _ | collected _ => exact h
  -- The entry of a run that leaves is gone; who else is active was so before.
  | @left _ t _ _ _ =>
    intro run number hrun
    change (m.system.active.erase t.run).get? run = some number at hrun
    rw [KeyMap.get?_erase] at hrun
    by_cases hsame : run = t.run
    · rw [if_pos hsame] at hrun
      cases hrun
    · rw [if_neg hsame] at hrun
      exact h run number hrun
  -- The run that starts is active with the newest task, which the deed names as well.
  | @started _ input _ =>
    intro run number hrun
    change (m.system.active.insert input.run m.system.tasks.length).get? run = some number at hrun
    rw [KeyMap.get?_insert] at hrun
    show (if run = input.run then some m.system.tasks.length else lastStarted run deeds) = _
    by_cases hsame : run = input.run
    · rw [if_pos hsame] at hrun ⊢
      exact hrun
    · rw [if_neg hsame] at hrun ⊢
      exact h run number hrun
  -- After a shutdown nobody is active.
  | aborted _ _ =>
    intro run number hrun
    change m.system.abortAll.2.active.get? run = some number at hrun
    rw [(System.abortAll_tables m.system).active] at hrun
    cases hrun

/-! ## The table of outcomes -/

/-- What was stored last stands, or a wait has returned since and nothing stands. -/
theorem StoredLast.stands_or {task : Nat} {since deeds : List Deed}
    (h : StoredLast run task outcome since deeds) :
    Chronicle.standing run deeds = some outcome ∨
      Chronicle.standing run deeds = none ∧
        ∃ call result, .collected call run result ∈ since := by
  obtain ⟨⟨earlier, rfl⟩, hsince⟩ := h
  -- The induction is on the deeds since the outcome was stored, the last one first. `below` is what
  -- had happened before that last one.
  induction since with
  | nil => exact .inl (if_pos rfl)
  | cons d since ih =>
    let below := since ++ .stored task run outcome :: earlier
    have hbelow : Chronicle.standing run below = some outcome ∨
        Chronicle.standing run below = none ∧
          ∃ call result, .collected call run result ∈ d :: since := by
      rcases ih fun other result hmem => hsince other result (List.mem_cons_of_mem d hmem) with
        hstands | ⟨hnone, call, result, hmem⟩
      · exact .inl hstands
      · exact .inr ⟨hnone, call, result, List.mem_cons_of_mem d hmem⟩
    cases d with
    -- An outcome stored since then belongs to another run, so what stands for this one is as it
    -- was.
    | stored other stored result =>
      have hrun : run ≠ stored := by
        rintro rfl
        exact hsince other result List.mem_cons_self
      have hsame : Chronicle.standing run (.stored other stored result :: below) =
          Chronicle.standing run below := if_neg hrun
      exact hsame ▸ hbelow
    -- A collection for the run leaves nothing standing, one for another run changes nothing for it.
    | collected call collected result =>
      by_cases hrun : run = collected
      · subst hrun
        exact .inr ⟨if_pos rfl, call, result, List.mem_cons_self⟩
      · have hsame : Chronicle.standing run (.collected call collected result :: below) =
            Chronicle.standing run below := if_neg hrun
        exact hsame ▸ hbelow
    | started _ _ | finished _ _ | awaited _ _ => exact hbelow

/-- What was stored last stands as long as no wait returns. -/
theorem StoredLast.standing (h : StoredLast run task outcome since deeds)
    (hnone : ∀ call result, .collected call run result ∉ since) :
    standing run deeds = some outcome :=
  h.stands_or.resolve_right fun ⟨_, call, result, hmem⟩ => hnone call result hmem

/-- Under a run id stands what was stored last and not collected since, or nothing if outcomes may
have been dropped. -/
def Told (dropped : Prop) (s : System) (deeds : List Deed) : Prop :=
  ∀ run, s.outcome? run = standing run deeds ∨ dropped ∧ s.outcome? run = none

/-- Outcomes are dropped at no other times. -/
structure Drops (dropped : Prop) (m : Machine) (move : Move) : Prop where
  move : move.drops = true → dropped
  calls : ∀ (number : Nat) state, m.calls[number]? = some state → state.drops = true → dropped

variable {s s' : System}

/-- What stands does not change when nothing is stored or collected. -/
theorem standing_cons_of_ne (hstored : ∀ task run outcome, d ≠ .stored task run outcome)
    (hcollected : ∀ call run outcome, d ≠ .collected call run outcome) (run : String) :
    standing run (d :: deeds) = standing run deeds := by
  cases d with
  | stored _ _ _ => exact absurd rfl (hstored _ _ _)
  | collected _ _ _ => exact absurd rfl (hcollected _ _ _)
  | started _ _ | finished _ _ | awaited _ _ => rfl

/-- Only the outcomes matter. -/
theorem Told.congr (h : Told dropped s deeds) (houtcomes : s'.outcomes = s.outcomes) :
    Told dropped s' deeds := by
  intro run
  have hsame : s'.outcome? run = s.outcome? run :=
    congrArg (fun outcomes => (KeyMap.get? outcomes run).map Ending.outcome) houtcomes
  rw [hsame]
  exact h run

/-- Outcomes that are dropped are not there. -/
theorem Told.keeping (h : Told dropped s deeds) (hdropped : dropped) (keep : Ending → Bool) :
    Told dropped (s.keeping keep) deeds := by
  intro run
  have hkept : (s.keeping keep).outcome? run =
      ((s.outcomes.get? run).filter keep).map Ending.outcome :=
    congrArg (Option.map Ending.outcome) (KeyMap.get?_filter s.outcomes (fun _ e => keep e) run)
  rw [hkept]
  cases hfound : s.outcomes.get? run with
  -- No outcome is held, and so none is lost.
  | none => exact .inr ⟨hdropped, rfl⟩
  | some ending =>
    -- An outcome that is kept is told as before; one that is not kept may be missing.
    by_cases hkeep : keep ending = true
    · rw [Option.filter_some, if_pos hkeep]
      have hrun := h run
      rw [System.outcome?, hfound] at hrun
      exact hrun
    · rw [Option.filter_some, if_neg hkeep]
      exact .inr ⟨hdropped, rfl⟩

/-- Every turn leaves the table of outcomes told by the deeds. -/
theorem Told.turn {done : Option Deed} (hturn : m.Turn executor move done m')
    (hdrops : Drops dropped m move) (h : Told dropped m.system deeds) :
    Told dropped m'.system (done.toList ++ deeds) := by
  -- Only storing and collecting tell of outcomes, and with any other deed the table must be the
  -- same.
  have hother : ∀ {d : Deed} {s : System}, (∀ task run outcome, d ≠ .stored task run outcome) →
      (∀ call run outcome, d ≠ .collected call run outcome) → s.outcomes = m.system.outcomes →
      Told dropped s (d :: deeds) := by
    intro d s hstored hcollected houtcomes run
    rw [standing_cons_of_ne hstored hcollected]
    exact h.congr houtcomes run
  cases hturn with
  | still _ _ | raised _ _ | called _ _ _ _ | began _ | ran _ _ _ | unflagged _ _ | left _ _ _
  | refused _ | listed _ _ _ | slept _ _ | noticed _ _ | woken _ | worked _ | joined _
  | discarded _ | stripped _ | closed _ | read _ _ | expired _ _ => exact h.congr rfl
  | aborted _ _ => exact h.congr (System.abortAll_tables m.system).outcomes
  | awaited _ | finished _ _ _ | started _ =>
    exact hother (fun _ _ _ => nofun) (fun _ _ _ => nofun) rfl
  -- Both the table and the tale now have this outcome for the run of the task.
  | @stored number t outcome there storing =>
    intro run
    have hget : (m.system.store t.run outcome).outcomes.get? run =
        if run = t.run then some ⟨outcome, m.system.world.around.clock⟩
        else m.system.outcomes.get? run :=
      KeyMap.get?_insert m.system.outcomes t.run run ⟨outcome, m.system.world.around.clock⟩
    show (((m.system.store t.run outcome).outcomes.get? run).map Ending.outcome =
      if run = t.run then some outcome else standing run deeds) ∨ _ ∧
        ((m.system.store t.run outcome).outcomes.get? run).map Ending.outcome = none
    rw [hget]
    by_cases hrun : run = t.run
    · rw [if_pos hrun, if_pos hrun]
      exact .inl rfl
    · rw [if_neg hrun, if_neg hrun]
      exact h run
  -- Both now have nothing for the run that was collected.
  | @collected number collected there =>
    intro run
    have hget : (m.system.collect collected).2.outcomes.get? run =
        if run = collected then none else m.system.outcomes.get? run :=
      KeyMap.get?_erase m.system.outcomes collected run
    show (((m.system.collect collected).2.outcomes.get? run).map Ending.outcome =
      if run = collected then none else standing run deeds) ∨ _ ∧
        ((m.system.collect collected).2.outcomes.get? run).map Ending.outcome = none
    rw [hget]
    by_cases hrun : run = collected
    · rw [if_pos hrun, if_pos hrun]
      exact .inl rfl
    · rw [if_neg hrun, if_neg hrun]
      exact h run
  -- Pruning and a sweep take outcomes away of which nothing is told; these have been dropped.
  | pruned _ keep => exact h.keeping (hdrops.move rfl) keep
  | @swept number there world same keep =>
    have hworld : Told dropped (m.system.withWorld world) deeds := h.congr rfl
    exact hworld.keeping (hdrops.calls number _ there rfl) keep

/-! ## Every order of moves -/

/-- What holds after every move. -/
structure Ledger (dropped : Prop) (c : Chronicle) : Prop where
  sound : c.machine.Sound
  active : ActiveLast c.machine.system c.deeds
  told : Told dropped c.machine.system c.deeds
  calls : ∀ (number : Nat) state, c.machine.calls[number]? = some state → state.drops = true →
    dropped

/-- What holds before a move holds after it. -/
theorem Ledger.step {c : Chronicle} (h : Ledger dropped c) {move : Move}
    (hmove : move.drops = true → dropped) : Ledger dropped (c.move executor move) := by
  have hturn := c.machine.turn_step executor move
  refine ⟨hturn.sound h.sound, h.active.turn hturn, h.told.turn hturn ⟨hmove, h.calls⟩, ?_⟩
  -- If outcomes may be dropped there is nothing to show of the calls that could drop them.
  by_cases hdropped : dropped
  · exact fun _ _ _ _ => hdropped
  · -- Nobody is in a sweep, so nobody is after this move either.
    have hnone : ∀ (number : Nat) state, c.machine.calls[number]? = some state →
        state.drops = false :=
      fun number state hstate => Bool.eq_false_iff.mpr (mt (h.calls number state hstate) hdropped)
    intro number state hstate hdrops
    rw [Machine.drops_step (Bool.eq_false_iff.mpr (mt hmove hdropped)) hnone number state hstate]
      at hdrops
    cases hdrops

/-- After some moves outcomes may have been dropped if one of the moves drops outcomes. -/
theorem ledger_run (executor : Executor) (settings : RunnerSettings) (world : World)
    (moves : List Move) :
    Ledger (∃ move ∈ moves, move.drops = true) ((start settings world).run executor moves) := by
  have hstart : Ledger (∃ move ∈ moves, move.drops = true) (start settings world) :=
    ⟨Machine.sound_ofWorld settings world, nofun, fun _ => .inl rfl, nofun⟩
  refine Machine.foldl_induction hstart fun before move hbefore h => h.step fun hdrops => ?_
  exact ⟨move, hbefore.subset (List.mem_append_right before List.mem_cons_self), hdrops⟩

/-! ## Runs that were aborted -/

/-- The last run with an id was aborted before it stored an outcome. -/
structure LastAborted (c : Chronicle) (run : String) (task : Nat) : Prop where
  last : lastStarted run c.deeds = some task
  aborted : ∃ t, c.machine.system.tasks[task]? = some t ∧ t.state = .aborted
  unstored : ∀ outcome, .stored task run outcome ∉ c.deeds

/-- An outcome of another run with the id was stored last, and no wait has returned since. -/
def LeftOver (run : String) (task : Nat) (outcome : Outcome) (deeds : List Deed) : Prop :=
  ∃ other since, other ≠ task ∧ StoredLast run other outcome since deeds ∧
    ∀ call result, .collected call run result ∉ since

/-- A run that was aborted is not active. -/
theorem LastAborted.absent {c : Chronicle} (h : c.LastAborted run task)
    (hledger : Ledger dropped c) :
    c.machine.system.active.get? run = none := by
  cases hactive : c.machine.system.active.get? run with
  | none => rfl
  | some number =>
    -- Who is active is not over and was started last, but that one was aborted.
    obtain ⟨t, ht, -, hover⟩ := hledger.sound.paired.registered run number hactive
    obtain ⟨t', ht', haborted⟩ := h.aborted
    have hlast := hledger.active run number hactive
    rw [h.last] at hlast
    cases hlast
    rw [ht] at ht'
    cases ht'
    rw [haborted] at hover
    cases hover

/-- What stands for a run that was aborted is left over from another one. -/
theorem LastAborted.standing_iff {c : Chronicle} (h : c.LastAborted run task) :
    standing run c.deeds = some outcome ↔ LeftOver run task outcome c.deeds := by
  constructor
  · intro hstands
    -- What stands was stored last by some task. It is not the one aborted, which has stored
    -- nothing.
    obtain ⟨other, since, hlast, huncollected⟩ := storedLast_of_standing hstands
    refine ⟨other, since, ?_, hlast, huncollected⟩
    rintro rfl
    obtain ⟨⟨earlier, hdeeds⟩, -⟩ := hlast
    refine h.unstored outcome ?_
    rw [hdeeds]
    exact List.mem_append_right since List.mem_cons_self
  · -- An outcome that an earlier task left and nobody collected stands still.
    rintro ⟨other, since, -, hlast, huncollected⟩
    exact hlast.standing huncollected

/-- A call that is about to collect returns what the table holds. -/
theorem move_collecting (executor : Executor) {c : Chronicle} {call : Nat}
    (hthere : c.machine.calls[call]? = some (.collecting run)) :
    (c.move executor (.call call)).deeds =
        .collected call run (c.machine.system.outcome? run) :: c.deeds ∧
      (c.move executor (.call call)).machine.calls[call]? =
        some (.collected run (c.machine.system.outcome? run)) := by
  have hstep : c.machine.step executor (.call call) = c.machine.goOn call
      (.collected run (c.machine.system.outcome? run)) (c.machine.system.collect run).2 := by
    show c.machine.stepCall executor call = _
    unfold Machine.stepCall Machine.stepWait
    simp only [hthere]
    rfl
  constructor
  · show (c.machine.callDeed? call).toList ++ c.deeds = _
    unfold Machine.callDeed?
    rw [hthere]
    rfl
  · show (c.machine.step executor (.call call)).calls[call]? = _
    rw [hstep, Machine.getElem?_goOn hthere, if_pos rfl]

/-- What a wait returns for a run that a shutdown has aborted before it ended, when nobody drops
outcomes. The run is not active, so a wait goes on to collect as soon as it gets the table. What it
returns is what is left over: the outcome of an earlier run with the id that was stored last, if no
wait has returned since, and otherwise nothing. -/
theorem collected_after_abort (executor : Executor) (settings : RunnerSettings) (world : World)
    {moves : List Move} (hmoves : ∀ move ∈ moves, move.drops = false) {c : Chronicle}
    (hc : c = (start settings world).run executor moves) (haborted : c.LastAborted run task)
    (call : Nat) :
    c.machine.system.isActive run = false ∧
    (∀ seen, c.machine.calls[call]? = some (.watching run seen) → c.machine.holder = none →
      (c.move executor (.call call)).machine.calls[call]? = some (.collecting run)) ∧
    (c.machine.calls[call]? = some (.collecting run) →
      ∃ result, (c.move executor (.call call)).deeds = .collected call run result :: c.deeds ∧
        (c.move executor (.call call)).machine.calls[call]? = some (.collected run result) ∧
        (∀ outcome, result = some outcome ↔ LeftOver run task outcome c.deeds) ∧
        (result = none ↔ ∀ outcome, ¬ LeftOver run task outcome c.deeds)) := by
  have hledger := ledger_run executor settings world moves
  rw [← hc] at hledger
  have habsent := haborted.absent hledger
  have hinactive := Machine.isActive_eq_false_iff.mpr habsent
  -- Nothing has been dropped, so the table holds what the deeds say.
  have hstands : c.machine.system.outcome? run = standing run c.deeds := by
    refine (hledger.told run).resolve_right ?_
    rintro ⟨⟨move, hmem, hdrops⟩, -⟩
    rw [hmoves move hmem] at hdrops
    cases hdrops
  refine ⟨hinactive, fun seen hthere hfree => ?_, fun hthere => ?_⟩
  · -- The run is not active, so the wait notices that and comes to collecting.
    have hstep : c.machine.step executor (.call call) =
        c.machine.goOn call (.collecting run) c.machine.system := by
      show c.machine.stepCall executor call = _
      unfold Machine.stepCall Machine.stepWait
      simp only [hthere, hfree, hinactive, Option.isSome_none, Bool.false_eq_true, if_false]
    show (c.machine.step executor (.call call)).calls[call]? = _
    rw [hstep, Machine.getElem?_goOn hthere, if_pos rfl]
  · -- What is collected is what stands, and that is what an earlier run has left over.
    have hiff : ∀ outcome, c.machine.system.outcome? run = some outcome ↔
        LeftOver run task outcome c.deeds := by
      intro outcome
      rw [hstands]
      exact haborted.standing_iff
    obtain ⟨hdeeds, hcall⟩ := move_collecting executor hthere
    refine ⟨c.machine.system.outcome? run, hdeeds, hcall, hiff, ?_⟩
    rw [Option.eq_none_iff_forall_ne_some]
    exact forall_congr' fun outcome => not_congr (hiff outcome)

/-- Whether a deed stores an outcome for a task. -/
def stores (task : Nat) : Deed → Bool
  | .stored other _ _ => task = other
  | _ => false

/-- The run whose outcome a call is about to collect. -/
def collects? : CallState → Option String
  | .collecting run => some run
  | _ => none

/-- A call is about to collect if its run tells so. -/
theorem collecting_of_eq {c : Chronicle} {call : Nat}
    (h : c.machine.calls[call]?.bind collects? = some run) :
    c.machine.calls[call]? = some (.collecting run) := by
  obtain ⟨state, hstate, hcollects⟩ := Option.bind_eq_some_iff.mp h
  cases state with
  | collecting run' =>
    cases hcollects
    exact hstate
  | _ => cases hcollects

/-- A run was aborted if its task is over, has not ended, and nothing is stored for it. -/
theorem lastAborted_of_eq {c : Chronicle} (hlast : lastStarted run c.deeds = some task)
    (haborted : (c.machine.system.tasks[task]?.map fun t =>
      t.state.isOver && !t.state.hasStored) = some true)
    (hunstored : c.deeds.all (fun d => !stores task d) = true) : c.LastAborted run task := by
  refine ⟨hlast, ?_, fun outcome hmem => ?_⟩
  · -- The states in which a task is over without having stored are aborted, and no other one.
    obtain ⟨t, ht, hover⟩ := Option.map_eq_some_iff.mp haborted
    refine ⟨t, ht, ?_⟩
    cases hstate : t.state with
    | aborted => rfl
    | running _ _ | storing _ | unflagging | leaving | ended =>
      rw [hstate] at hover
      cases hover
  · have hnot := List.all_eq_true.mp hunstored _ hmem
    simp [stores] at hnot

/-- A run ends and its outcome is collected. It is started anew and aborted, and the next wait for
it comes back empty. -/
theorem collected_after_abort_empty :
    let world : World := .start .standard (Memory.backend .empty) default
    let input : RunInput := ⟨"r", ⟨"acme", none⟩, ⟨[], [], [], [], [⟨"fetch", [], none⟩]⟩, ∅⟩
    let executor : Executor := fun _ _ => .fail (.crashed "no page")
    let moves : List Move :=
      [.start input, .call 0, .call 0] ++ List.replicate 8 (.task 0) ++
        [.wait "r", .call 1, .call 1, .start input, .call 2, .call 2, .shutdown, .call 3,
          .wait "r", .call 4]
    let c := (start .standard world).run executor moves
    (∀ move ∈ moves, move.drops = false) ∧ c.LastAborted "r" 1 ∧
      (c.deeds.any fun d => stores 0 d) = true ∧
      (c.move executor (.call 4)).deeds = .collected 4 "r" none :: c.deeds := by
  intro world input executor moves c
  have hmoves : ∀ move ∈ moves, move.drops = false := by decide
  -- The second run is the one that was aborted; the first one has stored, and was collected.
  have haborted : c.LastAborted "r" 1 :=
    lastAborted_of_eq (by decide +kernel) (by decide +kernel) (by decide +kernel)
  have hstored : (c.deeds.any fun d => stores 0 d) = true := by decide +kernel
  have hnothing : (standing "r" c.deeds).isNone = true := by decide +kernel
  have hcollecting : c.machine.calls[4]? = some (.collecting "r") :=
    collecting_of_eq (by decide +kernel)
  obtain ⟨-, -, hcollects⟩ :=
    collected_after_abort executor .standard world hmoves rfl haborted 4
  obtain ⟨result, hresult, -, hleft, -⟩ := hcollects hcollecting
  -- Nothing stands any more, so nothing is left over and nothing is collected.
  have hempty : result = none := by
    refine Option.eq_none_iff_forall_ne_some.mpr fun outcome hsome => ?_
    rw [haborted.standing_iff.mpr ((hleft outcome).mp hsome)] at hnothing
    cases hnothing
  rw [hresult, hempty]
  exact ⟨hmoves, haborted, hstored, rfl⟩

/-- A run ends and nobody collects its outcome. It is started anew and aborted, and the next wait
for it returns the outcome of the first run. -/
theorem leftover_collected :
    let world : World := .start .standard (Memory.backend .empty) default
    let input : RunInput := ⟨"r", ⟨"acme", none⟩, ⟨[], [], [], [], [⟨"fetch", [], none⟩]⟩, ∅⟩
    let executor : Executor := fun _ _ => .fail (.crashed "no page")
    let moves : List Move :=
      [.start input, .call 0, .call 0] ++ List.replicate 8 (.task 0) ++
        [.start input, .call 1, .call 1, .shutdown, .call 2, .wait "r", .call 3]
    let c := (start .standard world).run executor moves
    c.LastAborted "r" 1 ∧ ∃ outcome, LeftOver "r" 1 outcome c.deeds ∧
      (c.move executor (.call 3)).deeds = .collected 3 "r" (some outcome) :: c.deeds := by
  intro world input executor moves c
  have hmoves : ∀ move ∈ moves, move.drops = false := by decide
  have haborted : c.LastAborted "r" 1 :=
    lastAborted_of_eq (by decide +kernel) (by decide +kernel) (by decide +kernel)
  have hheld : (c.machine.system.outcome? "r").isSome = true := by decide +kernel
  have hcollecting : c.machine.calls[3]? = some (.collecting "r") :=
    collecting_of_eq (by decide +kernel)
  obtain ⟨outcome, houtcome⟩ := Option.isSome_iff_exists.mp hheld
  have hledger := ledger_run executor .standard world moves
  -- The outcome in the table was not put there by the run that was aborted, so the deeds of the
  -- earlier run account for it.
  have hstanding : standing "r" c.deeds = some outcome := by
    rcases hledger.told "r" with hsame | ⟨⟨move, hmem, hdrops⟩, -⟩
    · exact hsame.symm.trans houtcome
    · rw [hmoves move hmem] at hdrops
      cases hdrops
  have hdeeds := (move_collecting executor hcollecting).1
  rw [houtcome] at hdeeds
  exact ⟨haborted, outcome, haborted.standing_iff.mp hstanding, hdeeds⟩

end Chronicle

end RunParams
