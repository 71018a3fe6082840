import RunParams.Proofs.KeyMaps
import RunParams.Proofs.Scheduler.Turns

/-!
# The tables of a scheduler

Whatever the order of turns, the table of active runs and the tasks fit together
(`System.Paired`): under the id of an active run stands a task of that run which is not over, and
every task that is not over stands under the id of its run. So a run id has at most one task that
is not over, and what a task does to the entries under its run id it does to its own.

The table is filled by calls that hold it (`Machine.Sound.listed`): between the look whether a run
is active and its entry nobody else can have entered it.
-/

namespace RunParams

/-- What stands where in a list with one more at its end. -/
theorem getElem?_concat {α : Type} (xs : List α) (x : α) (i : Nat) :
    (xs ++ [x])[i]? = if i = xs.length then some x else xs[i]? := by
  by_cases hi : i = xs.length
  · rw [if_pos hi, hi, List.getElem?_concat_length]
  · rw [if_neg hi]
    by_cases hless : i < xs.length
    · exact List.getElem?_append_left hless
    · have hlength : (xs ++ [x]).length = xs.length + 1 := List.length_append
      rw [List.getElem?_eq_none (by omega), List.getElem?_eq_none (by omega)]

/-- A task that is aborted unless it is over. -/
def Task.halted (t : Task) : Task := if t.state.isOver then t else { t with state := .aborted }

/-- A halted task is over. -/
theorem Task.isOver_halted (t : Task) : t.halted.state.isOver = true := by
  unfold halted
  by_cases hover : t.state.isOver = true
  · rw [if_pos hover]
    exact hover
  · rw [if_neg hover]
    rfl

/-- A halted task is still one of its run, with its flag. -/
theorem Task.halted_same (t : Task) : t.halted.run = t.run ∧ t.halted.flag = t.flag := by
  unfold halted
  split
  · exact ⟨rfl, rfl⟩
  · exact ⟨rfl, rfl⟩

/-- What is halted stays as it is. -/
theorem Task.halted_halted (t : Task) : t.halted.halted = t.halted :=
  if_pos t.isOver_halted

/-- The number of endings that a call has seen which waits for one or looks for a run. -/
def CallState.seen? : CallState → Option Nat
  | watching _ seen | sleeping _ seen => some seen
  | _ => none

/-- A call that stands aside does not hold the table of active runs. -/
theorem CallState.ne_listing_of_isAside {state : CallState} (h : state.isAside = true)
    (input : RunInput) : state ≠ .listing input := by
  rintro rfl
  cases h

/-- A call that stands aside waits for no run. -/
theorem CallState.seen?_of_isAside {state : CallState} (h : state.isAside = true) :
    state.seen? = none := by
  cases state with
  | watching _ _ | sleeping _ _ => cases h
  | _ => rfl

namespace System

variable {s s' : System} {number : Nat} {task : Task} {state : TaskState}

/-- The active runs and the tasks that are not over belong to each other. -/
structure Paired (s : System) : Prop where
  /-- Under the id of an active run stands a task of it that is not over. -/
  registered : ∀ run number, s.active.get? run = some number →
    ∃ task, s.tasks[number]? = some task ∧ task.run = run ∧ task.state.isOver = false
  /-- A task that is not over stands under the id of its run. -/
  present : ∀ (number : Nat) task, s.tasks[number]? = some task → task.state.isOver = false →
    s.active.get? task.run = some number

/-- The tasks after one of them has been put into a state. -/
theorem getElem?_setTask (s : System) (number other : Nat) (state : TaskState) :
    (s.setTask number state).tasks[other]? =
      if other = number then (s.tasks[number]?).map fun t => { t with state }
      else s.tasks[other]? := by
  unfold setTask
  dsimp only
  rw [List.getElem?_modify]
  by_cases hother : other = number
  · subst hother
    simp
  · have hne : number ≠ other := fun h => hother h.symm
    simp [hother, hne]

/-- A task, after one of them has been put into a state, is that one or another, as it was. -/
theorem task_of_setTask {found : Task} {other : Nat} (hthere : s.tasks[number]? = some task)
    (hfound : (s.setTask number state).tasks[other]? = some found) :
    other = number ∧ found = { task with state } ∨
      other ≠ number ∧ s.tasks[other]? = some found := by
  rw [getElem?_setTask] at hfound
  by_cases hother : other = number
  · rw [if_pos hother, hthere] at hfound
    exact .inl ⟨hother, (Option.some.inj hfound).symm⟩
  · rw [if_neg hother] at hfound
    exact .inr ⟨hother, hfound⟩

/-- Only tasks and active runs matter. -/
theorem Paired.congr (h : s.Paired) (htasks : s'.tasks = s.tasks) (hactive : s'.active = s.active) :
    s'.Paired := by
  refine ⟨fun run number hrun => ?_, fun number task htask hover => ?_⟩
  · rw [hactive] at hrun
    rw [htasks]
    exact h.registered run number hrun
  · rw [htasks] at htask
    rw [hactive]
    exact h.present number task htask hover

/-- A task that goes on, and is not over then, stays where it stands. -/
theorem Paired.setTask (h : s.Paired) (hthere : s.tasks[number]? = some task)
    (hold : task.state.isOver = false) (hnew : state.isOver = false) :
    (s.setTask number state).Paired := by
  -- From the table to the tasks, then from the tasks to the table. The task that changes is under
  -- way before and after, so both stay true of it.
  refine ⟨fun run other hrun => ?_, fun other t ht hover => ?_⟩
  · obtain ⟨t, ht, htrun, hover⟩ := h.registered run other hrun
    rw [getElem?_setTask]
    by_cases hother : other = number
    · subst hother
      rw [hthere] at ht
      cases ht
      rw [if_pos rfl, hthere]
      exact ⟨{ task with state }, rfl, htrun, hnew⟩
    · rw [if_neg hother]
      exact ⟨t, ht, htrun, hover⟩
  · rcases task_of_setTask hthere ht with ⟨rfl, rfl⟩ | ⟨-, ht⟩
    · exact h.present other task hthere hold
    · exact h.present other t ht hover

/-- A task that leaves takes its own entry with it. -/
theorem Paired.leave (h : s.Paired) (hthere : s.tasks[number]? = some task)
    (hold : task.state.isOver = false) : ((s.leave task.run).setTask number .ended).Paired := by
  have hown : s.active.get? task.run = some number := h.present number task hthere hold
  have hactive : ∀ run, ((s.leave task.run).setTask number .ended).active.get? run =
      if run = task.run then none else s.active.get? run :=
    fun run => KeyMap.get?_erase s.active task.run run
  -- The entry that is erased is that of the task, and the task is over from now on.
  refine ⟨fun run other hrun => ?_, fun other t ht hover => ?_⟩
  · rw [hactive] at hrun
    by_cases hsame : run = task.run
    · rw [if_pos hsame] at hrun
      cases hrun
    · rw [if_neg hsame] at hrun
      obtain ⟨t, ht, htrun, hover⟩ := h.registered run other hrun
      -- The entry of another run has another task.
      have hother : other ≠ number := by
        rintro rfl
        rw [hthere] at ht
        cases ht
        exact hsame htrun.symm
      rw [getElem?_setTask, if_neg hother]
      exact ⟨t, ht, htrun, hover⟩
  · rcases task_of_setTask (s := s.leave task.run) hthere ht with ⟨rfl, rfl⟩ | ⟨hother, ht⟩
    · cases hover
    · -- A task under way has an entry of its own, so it cannot be one of the same run.
      have hentry : s.active.get? t.run = some other := h.present other t ht hover
      have hrun : t.run ≠ task.run := by
        intro hsame
        rw [hsame, hown] at hentry
        exact hother (Option.some.inj hentry).symm
      rw [hactive, if_neg hrun]
      exact hentry

/-- The tasks after a run has been started. -/
theorem getElem?_enlist (executor : Executor) (input : RunInput) (s : System) (other : Nat) :
    (s.enlist executor input).tasks[other]? =
      if other = s.tasks.length then
        some ⟨input.run, s.world.flags.length,
          .running .turn (input.perform executor s.world.flags.length)⟩
      else s.tasks[other]? := by
  show (s.tasks ++ [_])[other]? = _
  rw [getElem?_concat]

/-- A task, after a run has been started, is that of the run or was there before. -/
theorem task_of_enlist {executor : Executor} {input : RunInput} {found : Task} {other : Nat}
    (hfound : (s.enlist executor input).tasks[other]? = some found) :
    other = s.tasks.length ∧ found = ⟨input.run, s.world.flags.length,
        .running .turn (input.perform executor s.world.flags.length)⟩ ∨
      other < s.tasks.length ∧ s.tasks[other]? = some found := by
  rw [getElem?_enlist] at hfound
  by_cases hnew : other = s.tasks.length
  · rw [if_pos hnew] at hfound
    exact .inl ⟨hnew, (Option.some.inj hfound).symm⟩
  · rw [if_neg hnew] at hfound
    exact .inr ⟨(List.getElem?_eq_some_iff.mp hfound).1, hfound⟩

/-- A run that was not active gets a task and an entry. -/
theorem Paired.enlist (h : s.Paired) {input : RunInput} (executor : Executor)
    (habsent : s.active.get? input.run = none) : (s.enlist executor input).Paired := by
  have hactive : ∀ run, (s.enlist executor input).active.get? run =
      if run = input.run then some s.tasks.length else s.active.get? run :=
    fun run => KeyMap.get?_insert s.active input.run run s.tasks.length
  -- A new task is entered together with its entry; the run had none before, so no other entry is
  -- lost.
  refine ⟨fun run number hrun => ?_, fun number task htask hover => ?_⟩
  · rw [hactive] at hrun
    rw [getElem?_enlist]
    by_cases hsame : run = input.run
    · rw [if_pos hsame] at hrun
      cases hrun
      rw [if_pos rfl]
      exact ⟨_, rfl, hsame.symm, rfl⟩
    · rw [if_neg hsame] at hrun
      obtain ⟨task, htask, htrun, hover⟩ := h.registered run number hrun
      have hused : number < s.tasks.length := (List.getElem?_eq_some_iff.mp htask).1
      -- An older task has a smaller number than the new one.
      rw [if_neg (by omega)]
      exact ⟨task, htask, htrun, hover⟩
  · rw [hactive]
    rcases task_of_enlist htask with ⟨rfl, rfl⟩ | ⟨-, htask⟩
    · exact if_pos rfl
    · have hentry : s.active.get? task.run = some number := h.present number task htask hover
      have hrun : task.run ≠ input.run := by
        intro hsame
        rw [hsame, habsent] at hentry
        cases hentry
      rw [if_neg hrun]
      exact hentry

/-! ## Aborting -/

/-- The entries and the signal of two schedulers are the same. -/
structure SameTables (s s' : System) : Prop where
  active : s'.active = s.active
  signals : s'.signals = s.signals
  outcomes : s'.outcomes = s.outcomes
  endings : s'.endings = s.endings

/-- Aborting a task halts it. -/
theorem getElem?_abort (s : System) (number other : Nat) :
    (s.abort number).tasks[other]? =
      if other = number then (s.tasks[number]?).map Task.halted else s.tasks[other]? := by
  unfold abort
  -- A task is aborted unless it is over, and one that is over is halted as it is.
  cases hthere : s.tasks[number]? with
  | none =>
    by_cases hother : other = number
    · rw [if_pos hother, hother, hthere]
      rfl
    · rw [if_neg hother]
  | some task =>
    dsimp only
    cases hover : task.state.isOver with
    | true =>
      have hhalted : task.halted = task := if_pos hover
      rw [if_pos rfl, Option.map_some, hhalted]
      -- Nothing is done, and halting would change nothing either.
      by_cases hother : other = number
      · rw [if_pos hother, hother, hthere]
      · rw [if_neg hother]
    | false =>
      have hhalted : task.halted = { task with state := .aborted } :=
        if_neg (Bool.eq_false_iff.mp hover)
      rw [if_neg Bool.false_ne_true, getElem?_setTask, Option.map_some, hhalted]
      dsimp only
      rw [hthere, Option.map_some]

/-- Aborting a task leaves the tables as they are. -/
theorem sameTables_abort (s : System) (number : Nat) : s.SameTables (s.abort number) := by
  unfold abort
  split
  · exact ⟨rfl, rfl, rfl, rfl⟩
  · split
    · exact ⟨rfl, rfl, rfl, rfl⟩
    · exact ⟨rfl, rfl, rfl, rfl⟩

/-- Aborts the tasks of some runs. -/
def abortEach (runs : List (String × Nat)) (s : System) : System :=
  runs.foldl (fun s e => (s.logged (.aborting e.1)).abort e.2) s

/-- Aborting the tasks of some runs halts them. -/
theorem getElem?_abortEach (runs : List (String × Nat)) (s : System) (other : Nat) :
    (s.abortEach runs).tasks[other]? =
      if other ∈ runs.map (·.2) then (s.tasks[other]?).map Task.halted else s.tasks[other]? := by
  -- The scheduler is generalised, as each task is aborted in the one that the earlier ones have
  -- left.
  induction runs generalizing s with
  | nil => rfl
  | cons e rest ih =>
    show (((s.logged (.aborting e.1)).abort e.2).abortEach rest).tasks[other]? = _
    have hfirst : ((s.logged (.aborting e.1)).abort e.2).tasks[other]? =
        if other = e.2 then (s.tasks[e.2]?).map Task.halted else s.tasks[other]? :=
      getElem?_abort (s.logged (.aborting e.1)) e.2 other
    rw [ih, hfirst, List.map_cons]
    by_cases hother : other = e.2
    · -- Whether or not it comes again, it is halted.
      have hagain : ((s.tasks[e.2]?).map Task.halted).map Task.halted =
          (s.tasks[e.2]?).map Task.halted := by
        rw [Option.map_map]
        exact congrArg (Option.map · _) (funext Task.halted_halted)
      rw [if_pos hother, hagain, ite_self, hother, if_pos List.mem_cons_self]
    · have hmem : other ∈ e.2 :: rest.map (·.2) ↔ other ∈ rest.map (·.2) := by
        rw [List.mem_cons, or_iff_right hother]
      rw [if_neg hother]
      simp only [hmem]

/-- A task, after some have been aborted, is as it was or halted. -/
theorem task_of_abortEach (runs : List (String × Nat)) {found : Task}
    (hfound : (s.abortEach runs).tasks[number]? = some found) :
    ∃ t, s.tasks[number]? = some t ∧ (found = t ∨ found = t.halted) := by
  rw [getElem?_abortEach] at hfound
  split at hfound
  · obtain ⟨t, ht, rfl⟩ := Option.map_eq_some_iff.mp hfound
    exact ⟨t, ht, .inr rfl⟩
  · exact ⟨found, hfound, .inl rfl⟩

/-- Aborting the tasks of some runs leaves as many tasks. -/
theorem length_abortEach (runs : List (String × Nat)) (s : System) :
    (s.abortEach runs).tasks.length = s.tasks.length := by
  induction runs generalizing s with
  | nil => rfl
  | cons e rest ih =>
    have hfirst : ((s.logged (.aborting e.1)).abort e.2).tasks.length = s.tasks.length := by
      unfold abort
      split
      · rfl
      · split
        · rfl
        · exact List.length_modify _ _ _
    exact (ih ((s.logged (.aborting e.1)).abort e.2)).trans hfirst

/-- Aborting the tasks of some runs leaves what runs share as it is. -/
theorem untouched_abortEach (runs : List (String × Nat)) (s : System) :
    s.world.Untouched (s.abortEach runs).world := by
  induction runs generalizing s with
  | nil => exact ⟨rfl, rfl, rfl, rfl⟩
  | cons e rest ih =>
    have hfirst : s.world.Untouched ((s.logged (.aborting e.1)).abort e.2).world := by
      -- Whether the task is there and whether it is over makes no difference to the world.
      unfold abort
      split
      · exact ⟨rfl, rfl, rfl, rfl⟩
      · split
        · exact ⟨rfl, rfl, rfl, rfl⟩
        · exact ⟨rfl, rfl, rfl, rfl⟩
    have hrest := ih ((s.logged (.aborting e.1)).abort e.2)
    exact ⟨hrest.live.trans hfirst.live, hrest.contexts.trans hfirst.contexts,
      hrest.calls.trans hfirst.calls, hrest.flags.trans hfirst.flags⟩

/-- Aborting the tasks of some runs leaves the tables as they are. -/
theorem sameTables_abortEach (runs : List (String × Nat)) (s : System) :
    s.SameTables (s.abortEach runs) := by
  induction runs generalizing s with
  | nil => exact ⟨rfl, rfl, rfl, rfl⟩
  | cons e rest ih =>
    have hfirst := sameTables_abort (s.logged (.aborting e.1)) e.2
    have hrest := ih ((s.logged (.aborting e.1)).abort e.2)
    exact ⟨hrest.active.trans hfirst.active, hrest.signals.trans hfirst.signals,
      hrest.outcomes.trans hfirst.outcomes, hrest.endings.trans hfirst.endings⟩

/-- What a shutdown leaves of the tables: no run is active any more. -/
theorem abortAll_tables (s : System) : ({ s with active := ∅ } : System).SameTables s.abortAll.2 :=
  sameTables_abortEach s.active.entries { s with active := ∅ }

/-- A task, after a shutdown, is as it was or halted. -/
theorem task_of_abortAll {found : Task} (hfound : s.abortAll.2.tasks[number]? = some found) :
    ∃ t, s.tasks[number]? = some t ∧ (found = t ∨ found = t.halted) :=
  task_of_abortEach (s := { s with active := ∅ }) s.active.entries hfound

/-- A shutdown that aborts tasks leaves what runs share as it is. -/
theorem untouched_abortAll (s : System) : s.world.Untouched s.abortAll.2.world :=
  untouched_abortEach s.active.entries { s with active := ∅ }

/-- After a shutdown has aborted the active runs every task is over. -/
theorem Paired.isOver_abortAll (h : s.Paired) (hthere : s.abortAll.2.tasks[number]? = some task) :
    task.state.isOver = true := by
  change (({ s with active := ∅ } : System).abortEach s.active.entries).tasks[number]? = _ at hthere
  rw [getElem?_abortEach] at hthere
  by_cases hmem : number ∈ s.active.entries.map (·.2)
  · rw [if_pos hmem] at hthere
    obtain ⟨t, -, rfl⟩ := Option.map_eq_some_iff.mp hthere
    exact t.isOver_halted
  · -- What is not over stands in the table, so it has been aborted.
    rw [if_neg hmem] at hthere
    refine Bool.not_eq_false _ |>.mp fun hover => ?_
    have hentry := h.present number task hthere hover
    exact hmem (List.mem_map.mpr ⟨(task.run, number), Entries.mem_of_find hentry, rfl⟩)

/-- A shutdown that has aborted the active runs leaves neither tasks nor entries. -/
theorem Paired.abortAll (h : s.Paired) : s.abortAll.2.Paired := by
  refine ⟨fun run number hrun => ?_, fun number task htask hover => ?_⟩
  · rw [(abortAll_tables s).active] at hrun
    cases hrun
  · rw [h.isOver_abortAll htask] at hover
    cases hover

end System

namespace Machine

variable {executor : Executor} {m m' : Machine} {number : Nat} {state : CallState}
  {system : System} {move : Move} {d : Option Deed}

/-! ## Calls -/

/-- The calls after one of them has gone on. -/
theorem getElem?_goOn {old : CallState} (hthere : m.calls[number]? = some old) (other : Nat) :
    (m.goOn number state system).calls[other]? =
      if other = number then some state else m.calls[other]? := by
  have hused : number < m.calls.length := (List.getElem?_eq_some_iff.mp hthere).1
  show (m.calls.set number state)[other]? = _
  rw [List.getElem?_set]
  by_cases hother : number = other
  · subst hother
    rw [if_pos rfl, if_pos rfl, if_pos hused]
  · rw [if_neg hother, if_neg fun h => hother h.symm]

/-- The calls after another one has been added. -/
theorem getElem?_addCall (m : Machine) (state : CallState) (other : Nat) :
    (m.addCall state).calls[other]? =
      if other = m.calls.length then some state else m.calls[other]? := by
  exact getElem?_concat m.calls state other

/-- A call, after one of them has gone on, is that one or another, as it was. -/
theorem call_of_goOn {old found : CallState} {other : Nat} (hthere : m.calls[number]? = some old)
    (hfound : (m.goOn number state system).calls[other]? = some found) :
    other = number ∧ found = state ∨ other ≠ number ∧ m.calls[other]? = some found := by
  rw [getElem?_goOn hthere] at hfound
  by_cases hother : other = number
  · rw [if_pos hother] at hfound
    exact .inl ⟨hother, (Option.some.inj hfound).symm⟩
  · rw [if_neg hother] at hfound
    exact .inr ⟨hother, hfound⟩

/-- A call, after another one has been added, is that one or was there before. -/
theorem call_of_addCall {found : CallState} {other : Nat}
    (hfound : (m.addCall state).calls[other]? = some found) :
    other = m.calls.length ∧ found = state ∨
      other < m.calls.length ∧ m.calls[other]? = some found := by
  rw [getElem?_addCall] at hfound
  by_cases hother : other = m.calls.length
  · rw [if_pos hother] at hfound
    exact .inl ⟨hother, (Option.some.inj hfound).symm⟩
  · rw [if_neg hother] at hfound
    exact .inr ⟨(List.getElem?_eq_some_iff.mp hfound).1, hfound⟩

/-- What holds of all calls holds when another one is added of which it holds. -/
theorem forall_call_addCall {P : CallState → Prop}
    (h : ∀ (other : Nat) found, m.calls[other]? = some found → P found) (hnew : P state)
    (other : Nat) (found : CallState) (hfound : (m.addCall state).calls[other]? = some found) :
    P found := by
  rcases call_of_addCall hfound with ⟨-, rfl⟩ | ⟨-, hfound⟩
  · exact hnew
  · exact h other found hfound

/-- What holds of all calls holds when one of them goes on and it holds of that one. -/
theorem forall_call_goOn {P : CallState → Prop} {old : CallState}
    (h : ∀ (other : Nat) found, m.calls[other]? = some found → P found)
    (hthere : m.calls[number]? = some old) (hnew : P state) (other : Nat) (found : CallState)
    (hfound : (m.goOn number state system).calls[other]? = some found) : P found := by
  rcases call_of_goOn hthere hfound with ⟨-, rfl⟩ | ⟨-, hfound⟩
  · exact hnew
  · exact h other found hfound

/-! ## What holds between moves -/

/-- What holds of a machine whatever moves have been made. -/
structure Sound (m : Machine) : Prop where
  paired : m.system.Paired
  /-- Who holds the table of active runs is about to enter a run that is not in it. -/
  listed : ∀ number, m.holder = some number → ∃ input : RunInput,
    m.calls[number]? = some (.listing input) ∧ m.system.active.get? input.run = none
  /-- Who is about to enter a run holds the table. -/
  holding : ∀ number input, m.calls[number]? = some (.listing input) → m.holder = some number
  /-- Nobody has seen an ending that there was not. -/
  seen : ∀ (number : Nat) state seen, m.calls[number]? = some state →
    state.seen? = some seen → seen ≤ m.system.endings

/-- A machine stays sound when the calls stay as they are, and the table of active runs too while
someone holds it. -/
theorem Sound.withSystem (h : m.Sound) (hpaired : system.Paired)
    (hactive : m.holder = none ∨ system.active = m.system.active)
    (hendings : m.system.endings ≤ system.endings) : Sound { m with system := system } := by
  refine ⟨hpaired, fun number hnumber => ?_, h.holding, fun number state seen hcall hwaits => ?_⟩
  · obtain ⟨input, hcall, habsent⟩ := h.listed number hnumber
    rcases hactive with hfree | hsame
    · change m.holder = some number at hnumber
      rw [hfree] at hnumber
      cases hnumber
    · exact ⟨input, hcall, (congrArg (KeyMap.get? · input.run) hsame).trans habsent⟩
  · exact Nat.le_trans (h.seen number state seen hcall hwaits) hendings

/-- A machine stays sound when a call is added that does not hold the table. -/
theorem Sound.addCall (h : m.Sound) (hlisting : ∀ input, state ≠ .listing input)
    (hseen : ∀ seen, state.seen? = some seen → seen ≤ m.system.endings) :
    (m.addCall state).Sound := by
  -- The new call is no holder of the table and was added at the end, so all that is said of numbers
  -- stands.
  refine ⟨h.paired, fun number hnumber => ?_, fun number input hcall => ?_,
    fun number found seen hcall hwaits => ?_⟩
  · obtain ⟨input, hcall, habsent⟩ := h.listed number hnumber
    have hused : number < m.calls.length := (List.getElem?_eq_some_iff.mp hcall).1
    refine ⟨input, ?_, habsent⟩
    rw [getElem?_addCall, if_neg (by omega)]
    exact hcall
  · rcases call_of_addCall hcall with ⟨-, hnew⟩ | ⟨-, hcall⟩
    · exact absurd hnew.symm (hlisting input)
    · exact h.holding number input hcall
  · rcases call_of_addCall hcall with ⟨-, rfl⟩ | ⟨-, hcall⟩
    · exact hseen seen hwaits
    · exact h.seen number found seen hcall hwaits

/-- A machine stays sound when a call goes on that does not hold the table, before or after. -/
theorem Sound.goOn (h : m.Sound) {old : CallState} (hthere : m.calls[number]? = some old)
    (hold : ∀ input, old ≠ .listing input) (hnew : ∀ input, state ≠ .listing input)
    (hpaired : system.Paired) (hactive : m.holder = none ∨ system.active = m.system.active)
    (hendings : m.system.endings ≤ system.endings)
    (hseen : ∀ seen, state.seen? = some seen → seen ≤ system.endings) :
    (m.goOn number state system).Sound := by
  have hsystem : Sound { m with system := system } := h.withSystem hpaired hactive hendings
  -- Only the call that has gone on is another one now; neither before nor after does it hold the
  -- table.
  refine ⟨hpaired, fun other hother => ?_, fun other input hcall => ?_,
    fun other found seen hcall hwaits => ?_⟩
  · obtain ⟨input, hcall, habsent⟩ := hsystem.listed other hother
    change m.calls[other]? = some (.listing input) at hcall
    have hne : other ≠ number := by
      rintro rfl
      rw [hcall] at hthere
      exact hold input (Option.some.inj hthere).symm
    refine ⟨input, ?_, habsent⟩
    rw [getElem?_goOn hthere, if_neg hne]
    exact hcall
  · rcases call_of_goOn hthere hcall with ⟨-, hstate⟩ | ⟨-, hcall⟩
    · exact absurd hstate.symm (hnew input)
    · exact h.holding other input hcall
  · rcases call_of_goOn hthere hcall with ⟨-, rfl⟩ | ⟨-, hcall⟩
    · exact hseen seen hwaits
    · exact hsystem.seen other found seen hcall hwaits

/-- A machine stays sound when a call takes the table to start a run that is not in it. -/
theorem Sound.list (h : m.Sound) {input : RunInput}
    (hthere : m.calls[number]? = some (.starting input)) (hfree : m.holder = none)
    (habsent : m.system.active.get? input.run = none) :
    ({ m with holder := some number }.goOn number (.listing input) m.system).Sound := by
  change { m with holder := some number }.calls[number]? = _ at hthere
  -- The call takes hold of a table that nobody held.
  refine ⟨h.paired, fun other hother => ?_, fun other input' hcall => ?_,
    fun other found seen hcall hwaits => ?_⟩
  · cases hother
    refine ⟨input, ?_, habsent⟩
    rw [getElem?_goOn hthere, if_pos rfl]
  · rcases call_of_goOn hthere hcall with ⟨rfl, -⟩ | ⟨-, hcall⟩
    · rfl
    · -- Nobody held the table before, so there is no other call that does.
      have hheld := h.holding other input' hcall
      rw [hfree] at hheld
      cases hheld
  · rcases call_of_goOn hthere hcall with ⟨-, rfl⟩ | ⟨-, hcall⟩
    · cases hwaits
    · exact h.seen other found seen hcall hwaits

/-- A machine stays sound when the call that holds the table enters its run and gives it back. -/
theorem Sound.start (h : m.Sound) {input : RunInput}
    (hthere : m.calls[number]? = some (.listing input)) :
    ({ m with holder := none }.goOn number (.started m.system.tasks.length)
      (m.system.enlist executor input)).Sound := by
  have hheld : m.holder = some number := h.holding number input hthere
  obtain ⟨input', hcall, habsent⟩ := h.listed number hheld
  rw [hthere] at hcall
  cases hcall
  change { m with holder := none }.calls[number]? = _ at hthere
  -- The call gives the table up, and it was the only one to hold it.
  refine ⟨h.paired.enlist executor habsent, fun other hother => ?_, fun other input' hcall => ?_,
    fun other found seen hcall hwaits => ?_⟩
  · cases hother
  · rcases call_of_goOn hthere hcall with ⟨-, hstate⟩ | ⟨hother, hcall⟩
    · cases hstate
    · have hsame := h.holding other input' hcall
      rw [hheld] at hsame
      exact absurd (Option.some.inj hsame).symm hother
  · rcases call_of_goOn hthere hcall with ⟨-, rfl⟩ | ⟨-, hcall⟩
    · cases hwaits
    · exact h.seen other found seen hcall hwaits

/-- A machine stays sound when a call that stands aside goes on and changes the world. -/
theorem Sound.goOnAside (h : m.Sound) {old : CallState} (hthere : m.calls[number]? = some old)
    (hold : old.isAside = true) (hnew : state.isAside = true) (world : World) :
    (m.goOn number state (m.system.withWorld world)).Sound := by
  refine h.goOn hthere (CallState.ne_listing_of_isAside hold)
    (CallState.ne_listing_of_isAside hnew) (h.paired.congr rfl rfl) (.inr rfl) (Nat.le_refl _) ?_
  intro seen hseen
  rw [CallState.seen?_of_isAside hnew] at hseen
  cases hseen

/-- Every turn leaves a sound machine sound. -/
theorem Turn.sound (hturn : Turn executor m move d m') (h : m.Sound) : m'.Sound := by
  -- What is said of tasks and calls does not depend on the world.
  have hpaired : ∀ world, (m.system.withWorld world).Paired := fun _ => h.paired.congr rfl rfl
  have hworld : ∀ world, Sound { m with system := m.system.withWorld world } :=
    fun world => h.withSystem (hpaired world) (.inr rfl) (Nat.le_refl _)
  have hadd : ∀ world {state : CallState}, state.isAside = true →
      ({ m with system := m.system.withWorld world }.addCall state).Sound := by
    intro world state haside
    refine (hworld world).addCall (CallState.ne_listing_of_isAside haside) fun seen hseen => ?_
    rw [CallState.seen?_of_isAside haside] at hseen
    cases hseen
  -- A turn either changes a task, or a call, or only the world. Which of the lemmas above applies
  -- is told by what it changes.
  cases hturn with
  | still move same => exact hworld _
  | raised signal same => exact hworld _
  | called same state new kind =>
    rcases new with rfl | rfl | ⟨input, rfl⟩
    · exact hadd _ rfl
    · exact hadd _ rfl
    · exact (hworld _).addCall (fun _ => nofun) nofun
  | began program => exact hadd _ (CallState.isAside_ofPaused _)
  | awaited run =>
    refine h.addCall (fun _ => nofun) fun seen hseen => ?_
    cases hseen
    exact Nat.le_refl _
  -- A task that goes on is under way before and after.
  | ran there running stretch =>
    refine h.withSystem ((hpaired _).setTask there ?_ rfl) (.inr rfl) (Nat.le_refl _)
    rw [running]
    rfl
  | finished there running stretch =>
    refine h.withSystem ((hpaired _).setTask there ?_ rfl) (.inr rfl) (Nat.le_refl _)
    rw [running]
    rfl
  | @stored number task outcome there storing =>
    have hstored : (m.system.store task.run outcome).Paired := h.paired.congr rfl rfl
    refine h.withSystem (hstored.setTask there ?_ rfl) (.inr rfl) (Nat.le_refl _)
    rw [storing]
    rfl
  | @unflagged number task there unflagging =>
    have hunflagged : (m.system.unflag task.run).Paired := h.paired.congr rfl rfl
    refine h.withSystem (hunflagged.setTask there ?_ rfl) (.inr rfl) (Nat.le_refl _)
    rw [unflagging]
    rfl
  -- A task leaves the table of active runs while it is over for it, and nobody else holds the
  -- table.
  | left there leaving free =>
    refine h.withSystem (h.paired.leave there ?_) (.inl free) (Nat.le_succ _)
    rw [leaving]
    rfl
  | refused there =>
    exact h.goOn there (fun _ => nofun) (fun _ => nofun) h.paired (.inr rfl) (Nat.le_refl _) nofun
  | listed there free absent => exact h.list there free absent
  | started there => exact h.start there
  -- A waiter that goes to sleep remembers the count of ends that it has seen, as it did before.
  | slept there present =>
    refine h.goOn there (fun _ => nofun) (fun _ => nofun) h.paired (.inr rfl) (Nat.le_refl _) ?_
    intro seen hseen
    cases hseen
    exact h.seen _ _ _ there rfl
  | noticed there absent =>
    exact h.goOn there (fun _ => nofun) (fun _ => nofun) h.paired (.inr rfl) (Nat.le_refl _) nofun
  -- A waiter that is woken looks again, and the count that it remembers is that of now.
  | woken there =>
    refine h.goOn there (fun _ => nofun) (fun _ => nofun) h.paired (.inr rfl) (Nat.le_refl _) ?_
    intro seen hseen
    cases hseen
    exact Nat.le_refl _
  | collected there =>
    exact h.goOn there (fun _ => nofun) (fun _ => nofun) (h.paired.congr rfl rfl) (.inr rfl)
      (Nat.le_refl _) nofun
  -- All active runs are aborted at once, so neither table has an entry left.
  | aborted there free =>
    refine h.goOn there (fun _ => nofun) (fun _ => nofun) h.paired.abortAll (.inl free) ?_ nofun
    exact Nat.le_of_eq (System.abortAll_tables m.system).endings.symm
  | joined there => exact h.goOnAside there rfl rfl _
  | discarded there => exact h.goOnAside there rfl rfl _
  | stripped there =>
    exact h.goOn there (fun _ => nofun) (fun _ => nofun) (h.paired.congr rfl rfl) (.inr rfl)
      (Nat.le_refl _) nofun
  | closed there => exact h.goOnAside there rfl rfl _
  | read there same => exact h.goOnAside there rfl rfl _
  | expired there same => exact h.goOnAside there rfl rfl _
  | worked there => exact h.goOnAside there rfl (CallState.isAside_ofPaused _) _
  | pruned maxAge keep => exact h.withSystem (h.paired.congr rfl rfl) (.inr rfl) (Nat.le_refl _)
  | swept there same keep =>
    exact h.goOn there (fun _ => nofun) (fun _ => nofun) (h.paired.congr rfl rfl) (.inr rfl)
      (Nat.le_refl _) nofun

/-- A machine without runs and calls is sound. -/
theorem sound_ofWorld (settings : RunnerSettings) (world : World) :
    (Machine.ofWorld settings world).Sound := by
  have hpaired : (System.ofWorld settings world).Paired := ⟨nofun, nofun⟩
  exact ⟨hpaired, nofun, nofun, nofun⟩

/-- What holds at the beginning, and after each step if it held before, holds after all steps. -/
theorem foldl_induction {α β : Type} {f : β → α → β} {P : β → Prop} {b : β} {xs : List α}
    (hstart : P b) (hstep : ∀ before x, before ++ [x] <+: xs → P (before.foldl f b) →
      P (f (before.foldl f b) x)) : P (xs.foldl f b) := by
  induction xs generalizing b with
  | nil => exact hstart
  | cons x rest ih =>
    refine ih (hstep [] x ⟨rest, rfl⟩ hstart) fun before later hlater => ?_
    exact hstep (x :: before) later (List.cons_prefix_cons.mpr ⟨rfl, hlater⟩)

/-- What holds of a machine, and of what comes of each move if it held before, holds after all
moves. -/
theorem run_induction {P : Machine → Prop} {moves : List Move} (hstart : P m)
    (hstep : ∀ before move, before ++ [move] <+: moves → P (m.run executor before) →
      P ((m.run executor before).step executor move)) : P (m.run executor moves) :=
  foldl_induction hstart hstep

/-- A machine that had neither runs nor calls, after some moves. -/
def after (executor : Executor) (settings : RunnerSettings) (world : World) (moves : List Move) :
    Machine :=
  (ofWorld settings world).run executor moves

/-- Further moves are made after the others. -/
theorem after_append (executor : Executor) (settings : RunnerSettings) (world : World)
    (before later : List Move) :
    after executor settings world (before ++ later) =
      (after executor settings world before).run executor later :=
  List.foldl_append

/-- A further move is made after the others. -/
theorem after_concat (executor : Executor) (settings : RunnerSettings) (world : World)
    (before : List Move) (move : Move) :
    after executor settings world (before ++ [move]) =
      (after executor settings world before).step executor move :=
  after_append executor settings world before [move]

/-- A machine is sound after any moves. -/
theorem sound_after (executor : Executor) (settings : RunnerSettings) (world : World)
    (moves : List Move) : (after executor settings world moves).Sound :=
  run_induction (sound_ofWorld settings world) fun _ move _ h => (turn_step executor _ move).sound h

end Machine

end RunParams
