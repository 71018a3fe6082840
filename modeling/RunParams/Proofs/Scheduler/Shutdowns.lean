import RunParams.Proofs.Scheduler.Runs

/-!
# Shutdowns on their way

A shutdown takes all active runs out of their table and aborts their tasks. Then it goes through
their ids, one after the other, and tidies up. `Machine.Turn.clearing` follows a call on that way.

An id may have had several tasks in the course of time. The last of them is the one that counts
(`Machine.LastOf`): a task that is not over is the last one of its id, since its id is taken. As
long as no run is entered while a shutdown is on its way (`Machine.clearing`, `Machine.entered?`),
the tasks that the shutdown has aborted are still the last ones of their ids when it tidies up after
them.
-/

namespace RunParams

/-- Whether a call shuts down, has aborted the active runs and has to tidy up after them. -/
def CallState.clears : CallState → Bool
  | joining _ | discarding _ | unflagging _ _ => true
  | _ => false

/-- The ids under which a shutdown is going to discard contexts. -/
def CallState.pending : CallState → List String
  | joining aborted => aborted.map (·.1)
  | discarding runs => runs
  | unflagging _ rest => rest
  | _ => []

/-- Only a shutdown that tidies up discards contexts. -/
theorem CallState.clears_of_pending {state : CallState} {run : String} (h : run ∈ state.pending) :
    state.clears = true := by
  cases state with
  | joining _ | discarding _ | unflagging _ _ => rfl
  | _ => cases h

namespace Machine

variable {executor : Executor} {m m' : Machine} {move : Move} {d : Option Deed} {number call : Nat}
  {run : String}

/-- Whether a shutdown has to tidy up. -/
def clearing (m : Machine) : Bool := m.calls.any CallState.clears

/-- The id of the run that is entered among the active ones by a move. -/
def entered? (m : Machine) : Move → Option String
  | .call number =>
    match m.calls[number]? with
    | some (.listing input) => some input.run
    | _ => none
  | _ => none

/-- A call that has to tidy up is one of a shutdown on its way. -/
theorem clearing_of_call {state : CallState} (hcall : m.calls[call]? = some state)
    (hstate : state.clears = true) : m.clearing = true :=
  List.any_eq_true.mpr ⟨state, List.mem_of_getElem? hcall, hstate⟩

/-! ## The way of a shutdown -/

/-- What becomes of a shutdown that has to tidy up, and of one that has done so. -/
theorem Turn.clearing (hturn : Turn executor m move d m') {old : CallState}
    (hcall : m.calls[call]? = some old) (hold : old.clears = true ∨ old = .closed) :
    m'.calls[call]? = some old ∨
      (∃ aborted, old = .joining aborted ∧
        m'.calls[call]? = some (.discarding (aborted.map (·.1)))) ∨
      (∃ run rest, old = .discarding (run :: rest) ∧ m'.calls[call]? = some (.unflagging run rest) ∧
        m'.system.world.live = m.system.world.live.erase run) ∨
      (∃ run rest, old = .unflagging run rest ∧ m'.calls[call]? = some (.discarding rest)) ∨
      (old = .discarding [] ∧ m'.calls[call]? = some .closed) := by
  -- A new call comes after the old ones, so this one is as it was.
  have hadd : ∀ state, (m.addCall state).calls[call]? = some old := by
    intro state
    have hused : call < m.calls.length := (List.getElem?_eq_some_iff.mp hcall).1
    rw [getElem?_addCall, if_neg (Nat.ne_of_lt hused)]
    exact hcall
  -- Another call's turn leaves this one as it is.
  have hgoOn : ∀ {other : Nat} {there state : CallState} (system : System),
      m.calls[other]? = some there → call = other ∧ old = there ∧
        (m.goOn other state system).calls[call]? = some state ∨
      (m.goOn other state system).calls[call]? = some old := by
    intro other there state system hthere
    rw [getElem?_goOn hthere]
    by_cases hother : call = other
    · subst hother
      rw [hthere] at hcall
      exact .inl ⟨rfl, (Option.some.inj hcall).symm, if_pos rfl⟩
    · rw [if_neg hother]
      exact .inr hcall
  -- A call that is not tidying up is another one.
  have haside : ∀ {other : Nat} {there state : CallState} (system : System),
      m.calls[other]? = some there → there.clears = false → there ≠ .closed →
      (m.goOn other state system).calls[call]? = some old := by
    intro other there state system hthere hclears hclosed
    refine (hgoOn system hthere).resolve_left ?_
    rintro ⟨-, rfl, -⟩
    rcases hold with hold | hold
    · rw [hclears] at hold
      cases hold
    · exact hclosed hold
  -- Of all turns only four are turns of a call that tidies up: it stops waiting for its tasks,
  -- discards a context, removes a flag, or is done.
  cases hturn with
  | still _ _ | raised _ _ | ran _ _ _ | finished _ _ _ | stored _ _ | unflagged _ _ | left _ _ _
  | pruned _ _ => exact .inl hcall
  | called _ state _ _ => exact .inl (hadd state)
  | began program => exact .inl (hadd _)
  | awaited run => exact .inl (hadd _)
  | refused there | slept there _ | noticed there _ | woken there | collected there
  | aborted there _ | read there _ | expired there _ | swept there _ _ | worked there =>
    exact .inl (haside _ there rfl nofun)
  | listed there _ _ | started there => exact .inl (haside m.system there rfl nofun)
  | @joined other aborted there =>
    rcases hgoOn _ there with ⟨-, hsame, hnew⟩ | hnew
    · exact .inr (.inl ⟨aborted, hsame, hnew⟩)
    · exact .inl hnew
  | @discarded other run rest there =>
    rcases hgoOn _ there with ⟨-, hsame, hnew⟩ | hnew
    · exact .inr (.inr (.inl ⟨run, rest, hsame, hnew, Registry.live_discardNow run _⟩))
    · exact .inl hnew
  | @stripped other run rest there =>
    rcases hgoOn _ there with ⟨-, hsame, hnew⟩ | hnew
    · exact .inr (.inr (.inr (.inl ⟨run, rest, hsame, hnew⟩)))
    · exact .inl hnew
  | closed there =>
    rcases hgoOn _ there with ⟨-, hsame, hnew⟩ | hnew
    · exact .inr (.inr (.inr (.inr ⟨hsame, hnew⟩)))
    · exact .inl hnew

/-- A shutdown that has aborted the active runs had done so before a turn, or does so by it. -/
theorem Turn.joining (hturn : Turn executor m move d m') {aborted : List (String × Nat)}
    (hfound : m'.calls[call]? = some (.joining aborted)) :
    m.calls[call]? = some (.joining aborted) ∨ aborted = m.system.active.entries := by
  -- A call is not new at the point where it joins, and goes there from its beginning only.
  have hadd : ∀ {state : CallState} {system : System}, state.clears = false →
      ({ m with system := system }.addCall state).calls[call]? = some (.joining aborted) →
      m.calls[call]? = some (.joining aborted) := by
    intro state system hstate hfound
    rcases call_of_addCall hfound with ⟨-, rfl⟩ | ⟨-, hfound⟩
    · cases hstate
    · exact hfound
  -- A call that has gone on is at the point where it went, and the others are where they were.
  have hgoOn : ∀ {other : Nat} {old state : CallState} (system : System),
      m.calls[other]? = some old →
      (m.goOn other state system).calls[call]? = some (.joining aborted) →
      (∀ aborted, state ≠ .joining aborted) → m.calls[call]? = some (.joining aborted) := by
    intro other old state system there hfound hstate
    rcases call_of_goOn there hfound with ⟨-, rfl⟩ | ⟨-, hfound⟩
    · exact absurd rfl (hstate aborted)
    · exact hfound
  have hofPaused : ∀ p aborted, CallState.ofPaused p ≠ .joining aborted := by
    intro p aborted
    cases p with
    | waiting _ _ _ | ended _ _ => nofun
  -- Only the abort brings a call to joining, and then it joins all that were active.
  cases hturn with
  | still _ _ | raised _ _ | ran _ _ _ | finished _ _ _ | stored _ _ | unflagged _ _ | left _ _ _
  | pruned _ _ => exact .inl hfound
  | called same state new kind =>
    rcases new with rfl | rfl | ⟨input, rfl⟩
    · exact .inl (hadd rfl hfound)
    · exact .inl (hadd rfl hfound)
    · exact .inl (hadd rfl hfound)
  | began program =>
    rcases call_of_addCall hfound with ⟨-, hstate⟩ | ⟨-, hfound⟩
    · exact absurd hstate.symm (hofPaused _ aborted)
    · exact .inl hfound
  | awaited run =>
    rcases call_of_addCall hfound with ⟨-, hstate⟩ | ⟨-, hfound⟩
    · cases hstate
    · exact .inl hfound
  | refused there | slept there _ | noticed there _ | woken there | collected there | joined there
  | discarded there | stripped there | closed there | read there _ | expired there _
  | swept there _ _ => exact .inl (hgoOn _ there hfound fun _ => nofun)
  | listed there _ _ | started there =>
    exact .inl (hgoOn m.system there hfound fun _ => nofun)
  | worked there => exact .inl (hgoOn _ there hfound (hofPaused _))
  | aborted there free =>
    rcases call_of_goOn there hfound with ⟨-, hstate⟩ | ⟨-, hfound⟩
    · exact .inr (CallState.joining.inj hstate)
    · exact .inl hfound

/-! ## The last task of an id -/

/-- A task is the last one of an id. -/
structure LastOf (m : Machine) (run : String) (number : Nat) : Prop where
  there : ∃ t, m.system.tasks[number]? = some t ∧ t.run = run
  last : ∀ (other : Nat) t, m.system.tasks[other]? = some t → t.run = run → other ≤ number

/-- Every task that is not over is the last one of its id. -/
def Latest (m : Machine) : Prop :=
  ∀ (number : Nat) t, m.system.tasks[number]? = some t → t.state.isOver = false →
    m.LastOf t.run number

/-- An id has one last task. -/
theorem LastOf.unique {other : Nat} (h : m.LastOf run number) (h' : m.LastOf run other) :
    number = other := by
  obtain ⟨t, ht, hrun⟩ := h.there
  obtain ⟨t', ht', hrun'⟩ := h'.there
  exact Nat.le_antisymm (h'.last number t ht hrun) (h.last other t' ht' hrun')

/-- The last task of an id stays so unless a run with that id is entered. -/
theorem LastOf.turn (hturn : Turn executor m move d m') (hmove : m.entered? move ≠ some run)
    (h : m.LastOf run number) : m'.LastOf run number := by
  obtain ⟨t, ht, hrun⟩ := h.there
  obtain ⟨t', ht', hrun', -⟩ := hturn.task_stays ht
  refine ⟨⟨t', ht', hrun'.trans hrun⟩, fun other found hfound hsame => ?_⟩
  rcases hturn.task hfound with ⟨t, ht, hrun, -, -⟩ | ⟨call, input, rfl, hthere, -, hinput, -, -⟩
  · exact h.last other t ht (hrun.symm.trans hsame)
  · simp only [entered?, hthere, ← hinput, hsame] at hmove
    exact absurd rfl hmove

/-- While a task of an id is not over, no run with that id is entered. -/
theorem Sound.entered?_ne (h : m.Sound) {t : Task} (ht : m.system.tasks[number]? = some t)
    (hover : t.state.isOver = false) (move : Move) : m.entered? move ≠ some t.run := by
  -- A task that is not over is active, so no run of the same id can be entered into the table.
  have hpresent := h.paired.present number t ht hover
  cases move with
  | call call =>
    intro hrun
    unfold entered? at hrun
    -- The one move that could enter a run is that of a call which holds the table for it.
    dsimp only at hrun
    split at hrun
    · next input hcall =>
      obtain ⟨input', hcall', habsent⟩ := h.listed call (h.holding call input hcall)
      rw [hcall] at hcall'
      cases hcall'
      rw [← Option.some.inj hrun, habsent] at hpresent
      cases hpresent
    · cases hrun
  | start _ | wait _ | shutdown | sweep | work _ | cancel _ | prune _ | task _ | tick _ => nofun

/-- Every turn leaves every task that is not over the last one of its id. -/
theorem Latest.turn (hturn : Turn executor m move d m') (hsound : m.Sound) (h : m.Latest) :
    m'.Latest := by
  intro number found hfound hover
  -- A task that is not over was there before, or is new.
  rcases hturn.task hfound with ⟨t, ht, hrun, -, hstays⟩ | ⟨-, -, -, -, hnew, -, -, -⟩
  · -- It was not over before the turn either, so no run of its id was entered in it.
    have hold : t.state.isOver = false := Bool.eq_false_iff.mpr fun hold => by
      rw [hstays hold] at hover
      cases hover
    rw [hrun]
    exact (h number t ht hold).turn hturn (hsound.entered?_ne ht hold move)
  · -- The new task is the last of all.
    refine ⟨⟨found, hfound, rfl⟩, fun other t ht hsame => ?_⟩
    rcases hturn.task ht with ⟨t', ht', -, -, -⟩ | ⟨-, -, -, -, hother, -, -, -⟩
    · have hused : other < m.system.tasks.length := (List.getElem?_eq_some_iff.mp ht').1
      omega
    · omega

/-! ## Shutdowns in which no run is entered -/

/-- The tasks that a shutdown has aborted are the last ones of their ids. -/
def Joined (m : Machine) : Prop :=
  ∀ (call : Nat) aborted, m.calls[call]? = some (.joining aborted) →
    ∀ run number, (run, number) ∈ aborted → m.LastOf run number

/-- Where no run is entered while a shutdown is on its way, the tasks that it has aborted stay the
last ones of their ids as long as it waits for their end. -/
theorem Joined.turn (hturn : Turn executor m move d m') (hsound : m.Sound) (hlatest : m.Latest)
    (hmove : m.clearing = true → m.entered? move = none) (h : m.Joined) : m'.Joined := by
  intro call aborted hcall run number hmem
  -- A call that joins did so before, or does so since this turn with all tasks that were active.
  rcases hturn.joining hcall with hcall | rfl
  · -- Nobody enters a run while a shutdown tidies up, so what was last of its id is so still.
    refine (h call aborted hcall run number hmem).turn hturn ?_
    rw [hmove (clearing_of_call hcall rfl)]
    nofun
  · -- A task that was active is not over, and of such tasks the last ones are known.
    have hactive : m.system.active.get? run = some number :=
      m.system.active.sorted.find_of_mem hmem
    obtain ⟨t, ht, rfl, hover⟩ := hsound.paired.registered run number hactive
    exact (hlatest number t ht hover).turn hturn (hsound.entered?_ne ht hover move)

/-- A shutdown has aborted the last task of an id, or has come to its end. -/
def Clears (m : Machine) (call : Nat) (run : String) (number : Nat) : Prop :=
  ∃ state, m.calls[call]? = some state ∧
    (state.clears = true ∧ m.LastOf run number ∨ state = .closed)

/-- Where no run is entered while a shutdown is on its way, a task that it has aborted stays the
last one of its id until it has come to its end. -/
theorem Clears.turn (hturn : Turn executor m move d m')
    (hmove : m.clearing = true → m.entered? move = none) (h : m.Clears call run number) :
    m'.Clears call run number := by
  obtain ⟨old, hcall, hold⟩ := h
  -- Whoever is not through stays responsible, as nobody enters a run meanwhile.
  have hclears : ∀ {state : CallState}, old ≠ .closed → m'.calls[call]? = some state →
      state.clears = true → m'.Clears call run number := by
    intro state hopen hstate hclears
    obtain ⟨holds, hlast⟩ := hold.resolve_right hopen
    refine ⟨state, hstate, .inl ⟨hclears, hlast.turn hturn ?_⟩⟩
    rw [hmove (clearing_of_call hcall holds)]
    nofun
  -- One case for each piece of a shutdown: the call stays, goes on to discard, discards one more,
  -- removes a flag, or is through.
  rcases hturn.clearing hcall (hold.imp And.left id) with hsame | ⟨aborted, rfl, hnew⟩ |
    ⟨_, rest, rfl, hnew, -⟩ | ⟨_, rest, rfl, hnew⟩ | ⟨rfl, hnew⟩
  · by_cases hopen : old = .closed
    · exact ⟨old, hsame, .inr hopen⟩
    · exact hclears hopen hsame (hold.resolve_right hopen).1
  · exact hclears nofun hnew rfl
  · exact hclears nofun hnew rfl
  · exact hclears nofun hnew rfl
  · exact ⟨.closed, hnew, .inr rfl⟩

/-- An id under which a shutdown is going to discard a context stays so until the context is
discarded. -/
theorem Turn.pending (hturn : Turn executor m move d m') {old : CallState}
    (hcall : m.calls[call]? = some old) (hrun : run ∈ old.pending) :
    (∃ state, m'.calls[call]? = some state ∧ run ∈ state.pending) ∨
      m'.system.world.live = m.system.world.live.erase run := by
  rcases hturn.clearing hcall (.inl (CallState.clears_of_pending hrun)) with hsame |
    ⟨aborted, rfl, hnew⟩ | ⟨first, rest, rfl, hnew, hlive⟩ | ⟨_, rest, rfl, hnew⟩ | ⟨rfl, -⟩
  · -- As long as nothing happens to the call, the run is pending with it. A piece that discards
    -- takes away either this run or another one.
    exact .inl ⟨old, hsame, hrun⟩
  · exact .inl ⟨_, hnew, hrun⟩
  · rcases List.mem_cons.mp hrun with rfl | hrest
    · exact .inr hlive
    · exact .inl ⟨_, hnew, hrest⟩
  · exact .inl ⟨_, hnew, hrun⟩
  · cases hrun

end Machine

end RunParams
