import RunParams.Proofs.Replay.Runs
import RunParams.Proofs.Scheduler.Runs

/-!
# What tasks leave to each other

While nobody does other work than the scheduler, every task minds its own business
(`Machine.Peaceful`): the context that its run has opened is one of that run, tasks have different
flags, and the flag under the id of a run is that of a task of the run. So whatever move is made, a
task that performs its run is spared by it (`Machine.Peaceful.spares`), unless the move is its own
or someone asks the run to stop: its contexts stay as they are, its flag is not raised and no
context is made live under its id. A sweep may well discard the context that is live, and a shutdown
may end the task.
-/

namespace RunParams

open Program

variable {executor : Executor} {run : String} {number : Nat} {t : Task} {wait wait' : Wait}
  {resume resume' : World → Paused World Failure Summary} {w w' : World}

/-! ## Runs that mind their own contexts -/

/-- What is left of a run, in a world: it goes on along a course, on which the context that it has
is one of the run, and does regular work. -/
structure RunInput.Minds (run : String) (w : World)
    (resume : World → Paused World Failure Summary) : Prop where
  regular : ∀ s, (resume s).KeepsTo World.Regular s
  course : ∃ q : Course, (∀ s, OnCourse run (Course.Ends run) q s (resume s)) ∧
    ∀ n, q.own = some n → ∃ c, w.contexts[n]? = some c ∧ c.run = run

namespace RunInput

/-- A run minds its own contexts when it is started. -/
theorem minds_perform (executor : Executor) (input : RunInput) (flag : Nat) (w : World) :
    Minds input.run w (input.perform executor flag) :=
  ⟨regular_perform executor input flag, ⟨none, input.workflow.steps⟩,
    course_perform executor input flag, fun _ hnone => nomatch hnone⟩

/-- A run minds its own contexts whatever regular work others do. -/
theorem Minds.regular_of (h : Minds run w resume) (hregular : w.Regular w') :
    Minds run w' resume := by
  obtain ⟨q, hcourse, hown⟩ := h.course
  refine ⟨h.regular, q, hcourse, fun n hn => ?_⟩
  obtain ⟨c, hc, hrun⟩ := hown n hn
  obtain ⟨c', hc', hrun'⟩ := hregular.runs n c hc
  exact ⟨c', hc', hrun'.trans hrun⟩

/-- A stretch of a run up to the next wait spares the contexts of other runs, and the run goes on to
mind its own ones. -/
theorem Minds.ran (h : Minds run w resume) (hlabelled : w.Labelled)
    (hstretch : resume w = .waiting w' wait' resume') :
    w.Regular w' ∧ Minds run w' resume' ∧
      (∀ (n : Nat) c, w.contexts[n]? = some c → c.run ≠ run → w'.contexts[n]? = some c) ∧
      ∀ other, other ≠ run → w'.live.get? other = w.live.get? other := by
  -- Two things are known of what is left of the run: it is regular work, and it is on its course.
  have hkeeps := h.regular w
  obtain ⟨q, hcourse, hown⟩ := h.course
  have hfollows := hcourse w
  rw [hstretch] at hkeeps hfollows
  obtain ⟨hregular, hrest⟩ := hkeeps
  obtain ⟨q', hleads, hrest'⟩ := hfollows
  -- It touches no context but its own, which has its id, and makes live no other one.
  refine ⟨hregular, ⟨fun s => hrest s trivial, q', hrest', fun n hn => ?_⟩,
    fun n c hc hrun => ?_, fun other hother => ?_⟩
  · rcases hleads.opened with ⟨hsame, -⟩ | ⟨-, number, hnumber, hgains⟩
    · obtain ⟨c, hc, hrun⟩ := hown n (hsame ▸ hn)
      obtain ⟨c', hc', hrun'⟩ := hregular.runs n c hc
      exact ⟨c', hc', hrun'.trans hrun⟩
    · -- The context that has just been opened is live under the id of the run.
      rw [hnumber] at hn
      cases hn
      obtain ⟨createdAt, hlive⟩ := hgains.live
      refine hregular.labelled hlabelled run ⟨n, createdAt⟩ ?_
      rw [hlive, KeyMap.get?_insert, if_pos rfl]
  · -- The context that the run works on is one of its id, or one that has just been opened and so
    -- was not there before.
    have hused : n < w.contexts.length := (List.getElem?_eq_some_iff.mp hc).1
    refine (hleads.others n hused fun hn => ?_).trans hc
    rcases hleads.opened with ⟨hsame, -⟩ | ⟨-, number, hnumber, hgains⟩
    · obtain ⟨c', hc', hrun'⟩ := hown n (hsame ▸ hn)
      rw [hc] at hc'
      cases hc'
      exact hrun hrun'
    · rw [hnumber] at hn
      cases hn
      exact absurd hused (Nat.not_lt_of_le hgains.unused)
  · rcases hleads.opened with ⟨-, hlive⟩ | ⟨-, number, -, hgains⟩
    · rw [hlive]
    · obtain ⟨createdAt, hlive⟩ := hgains.live
      rw [hlive, KeyMap.get?_insert, if_neg hother]

/-- The last stretch of a run spares the contexts of other runs. -/
theorem Minds.finished (h : Minds run w resume) {result : Except Failure Summary}
    (hstretch : resume w = .ended w' result) :
    w.Regular w' ∧
      (∀ (n : Nat) c, w.contexts[n]? = some c → c.run ≠ run → w'.contexts[n]? = some c) ∧
      ∀ other, other ≠ run → w'.live.get? other = w.live.get? other := by
  have hkeeps := h.regular w
  obtain ⟨q, hcourse, hown⟩ := h.course
  have hfollows := hcourse w
  rw [hstretch] at hkeeps hfollows
  have hends : q.Ends run w w' result := hfollows
  refine ⟨hkeeps, fun n c hc _ => hends.contexts ▸ hc, fun other hother => ?_⟩
  -- If it discards at the end, it does so by its own id.
  rcases hends.live with ⟨-, hlive, -⟩ | ⟨-, hlive⟩
  · rw [hlive]
  · rw [hlive, KeyMap.get?_erase, if_neg hother]

end RunInput

/-! ## Settings and takings -/

namespace System

/-- What a task does after its run leaves the world as it is. -/
theorem world_wrapUp (s : System) (number : Nat) (t : Task) :
    (s.wrapUp number t).world = s.world := by
  unfold wrapUp
  split
  · rfl
  · rfl
  · rfl
  · rfl
  · rfl
  · rfl

/-- To abort the tasks of some runs goes onward. -/
theorem onward_abortEach (runs : List (String × Nat)) (s : System) :
    s.world.Onward (s.abortEach runs).world := by
  induction runs generalizing s with
  | nil => exact .refl s.world
  | cons e rest ih =>
    have hfirst : s.world.Onward ((s.logged (.aborting e.1)).abort e.2).world := by
      unfold abort
      split
      · exact .of_supply rfl ⟨rfl, rfl, rfl⟩ rfl
      · split
        · exact .of_supply rfl ⟨rfl, rfl, rfl⟩ rfl
        · exact .of_supply rfl ⟨rfl, rfl, rfl⟩ rfl
    exact hfirst.trans (ih ((s.logged (.aborting e.1)).abort e.2))

/-- To discard contexts that are too old goes onward. -/
theorem onward_expireAt (now : Nat) (s : System) : s.world.Onward (s.expireAt now).world := by
  have hexpired : s.world.Onward (Registry.expireAt now s.settings.maxRunAge s.world).2 :=
    .of_supply rfl ⟨rfl, rfl, rfl⟩ rfl
  unfold expireAt
  rcases hpair : Registry.expireAt now s.settings.maxRunAge s.world with ⟨_ | ⟨run, runs⟩, world⟩
  · rw [hpair] at hexpired
    exact hexpired
  · rw [hpair] at hexpired
    have hreport : world.Onward (world.logged [.contextsExpired (run :: runs).length]) :=
      .of_supply rfl ⟨rfl, rfl, rfl⟩ rfl
    exact hexpired.trans hreport

/-- To drop outcomes that are too old goes onward. -/
theorem onward_pruneOld (s : System) : s.world.Onward s.pruneOld.world := by
  have hpruned : (s.prune s.settings.maxRunAge).2.world = s.world := rfl
  unfold pruneOld
  rcases hprune : s.prune s.settings.maxRunAge with ⟨_ | count, pruned⟩
  · rw [hprune] at hpruned
    exact hpruned ▸ .refl _
  · rw [hprune] at hpruned
    exact hpruned ▸ .of_supply rfl ⟨rfl, rfl, rfl⟩ rfl

end System

namespace Machine

variable {m m' : Machine} {move : Move} {d : Option Deed}

/-- A task that performs its run waits on, or performs its run up to the next wait or to the end. -/
theorem stepTask_running (ht : m.system.tasks[number]? = some t)
    (hrunning : t.state = .running wait resume) :
    m.stepTask number = m ∨
      (∃ wait' resume', resume m.system.world =
          .waiting (m.stepTask number).system.world wait' resume' ∧
        (m.stepTask number).system.tasks[number]? =
          some { t with state := .running wait' resume' }) ∨
      ∃ result, resume m.system.world = .ended (m.stepTask number).system.world result ∧
        (m.stepTask number).system.tasks[number]? =
          some { t with state := .storing (.ofResult result) } := by
  have hset : ∀ (world : World) (state : TaskState),
      ((m.system.withWorld world).setTask number state).tasks[number]? =
        some { t with state } := by
    intro world state
    rw [System.getElem?_setTask, if_pos rfl]
    exact congrArg (Option.map _) ht
  unfold stepTask
  simp only [ht, hrunning]
  -- The task waits on, or its run does a stretch, which ends in a wait or returns.
  by_cases hover : World.isOver wait m.system.world = true
  · rw [if_pos hover]
    cases resume m.system.world with
    | waiting world wait' resume' => exact .inr (.inl ⟨wait', resume', rfl, hset world _⟩)
    | ended world result => exact .inr (.inr ⟨result, rfl, hset world _⟩)
  · rw [if_neg hover]
    exact .inl rfl

/-- A task that does not perform its run leaves the world as it is. -/
theorem world_stepTask (h : ∀ t, m.system.tasks[number]? = some t → t.state.performs = false) :
    (m.stepTask number).system.world = m.system.world := by
  unfold stepTask
  cases ht : m.system.tasks[number]? with
  | none => rfl
  | some t =>
    dsimp only
    have hstate := h t ht
    -- A task that does not perform its run does pieces of work that concern the tables only.
    cases hcase : t.state with
    | running wait resume =>
      rw [hcase] at hstate
      cases hstate
    | leaving =>
      dsimp only
      split
      · exact System.world_wrapUp m.system number t
      · rfl
    | storing _ | unflagging | ended | aborted => exact System.world_wrapUp m.system number t

/-- A call that does not do other work goes onward. -/
theorem onward_stepCall (executor : Executor) (m : Machine) (hunworked : m.Unworked) :
    m.system.world.Onward (m.stepCall executor number).system.world := by
  have hrefl := World.Onward.refl m.system.world
  unfold stepCall
  cases hthere : m.calls[number]? with
  | none => exact hrefl
  | some state =>
    dsimp only
    cases state with
    | starting input =>
      unfold stepStart
      dsimp only
      -- Without further work in progress a call reads the calendar, discards contexts, or leaves
      -- the world alone.
      split
      · exact hrefl
      · split
        · exact hrefl
        · exact hrefl
    | listing input => exact .of_supply rfl ⟨rfl, rfl, rfl⟩ rfl
    | watching run seen =>
      unfold stepWait
      dsimp only
      split
      · exact hrefl
      · split
        · exact hrefl
        · exact hrefl
    | sleeping run seen =>
      unfold stepWait
      dsimp only
      split
      · exact hrefl
      · exact hrefl
    | collecting run => exact hrefl
    | closing =>
      unfold stepShutdown
      dsimp only
      split
      · exact hrefl
      · exact System.onward_abortEach m.system.active.entries { m.system with active := ∅ }
    | joining aborted =>
      unfold stepShutdown
      dsimp only
      split
      · exact hrefl
      · exact hrefl
    | discarding runs =>
      cases runs with
      | nil => exact hrefl
      | cons run rest => exact (World.regular_discardNow run m.system.world).toOnward
    | unflagging run rest => exact hrefl
    | sweeping => exact ⟨rfl, ⟨.refl _, Nat.le_succ _⟩⟩
    | expiring now => exact m.system.onward_expireAt now
    | pruning => exact m.system.onward_pruneOld
    | working wait resume => exact absurd (hunworked _ _ hthere) nofun
    | started _ | refused _ | collected _ _ | closed | swept | worked _ => exact hrefl

/-! ## Tasks and flags -/

/-- A flag under a run id has been there before, or belongs to a run that has just been started. -/
theorem Turn.signal (hturn : Turn executor m move d m') {flag : Nat}
    (hsignal : m'.system.signals.get? run = some flag) :
    m.system.signals.get? run = some flag ∨
      ∃ (number : Nat) (t : Task), m'.system.tasks[number]? = some t ∧ t.run = run ∧
        t.flag = flag := by
  have herase : ∀ {other : String},
      (m.system.signals.erase other).get? run = some flag →
      m.system.signals.get? run = some flag := by
    intro other hget
    rw [KeyMap.get?_erase] at hget
    by_cases hother : run = other
    · rw [if_pos hother] at hget
      cases hget
    · rwa [if_neg hother] at hget
  -- A flag of a run is signalled anew only when the run starts, and then the task that has it is
  -- there.
  cases hturn with
  | still _ _ | raised _ _ | called _ _ _ _ | began _ | awaited _ | pruned _ _ | refused _
  | listed _ _ _ | slept _ _ | noticed _ _ | woken _ | collected _ | joined _ | discarded _
  | closed _ | read _ _ | expired _ _ | worked _ | swept _ _ _ | ran _ _ _ | finished _ _ _
  | stored _ _ | left _ _ _ => exact .inl hsignal
  | unflagged _ _ | stripped _ => exact .inl (herase hsignal)
  | aborted _ _ =>
    exact .inl ((congrArg (KeyMap.get? · run) (System.abortAll_tables m.system).signals).symm.trans
      hsignal)
  | @started call input there =>
    change (m.system.signals.insert input.run m.system.world.flags.length).get? run = some flag
      at hsignal
    rw [KeyMap.get?_insert] at hsignal
    by_cases hrun : run = input.run
    · rw [if_pos hrun] at hsignal
      cases hsignal
      refine .inr ⟨m.system.tasks.length, ⟨input.run, m.system.world.flags.length,
        .running .turn (input.perform executor m.system.world.flags.length)⟩, ?_, hrun.symm, rfl⟩
      show (m.system.enlist executor input).tasks[m.system.tasks.length]? = some _
      rw [System.getElem?_enlist, if_pos rfl]
    · rw [if_neg hrun] at hsignal
      exact .inl hsignal

/-! ## Machines that are at peace -/

/-- What holds when nobody does other work than the scheduler: tasks mind their own business. -/
structure Peaceful (executor : Executor) (m : Machine) : Prop where
  sound : m.Sound
  steered : m.Steered executor
  labelled : m.system.world.Labelled
  minds : ∀ (number : Nat) t wait resume, m.system.tasks[number]? = some t →
    t.state = .running wait resume → RunInput.Minds t.run m.system.world resume
  distinct : ∀ (i j : Nat) t t', m.system.tasks[i]? = some t → m.system.tasks[j]? = some t' →
    t.flag = t'.flag → i = j
  /-- The flag under a run id is that of a task of the run. -/
  signalled : ∀ run flag, m.system.signals.get? run = some flag →
    ∃ (number : Nat) (t : Task), m.system.tasks[number]? = some t ∧ t.run = run ∧ t.flag = flag

/-- At the beginning there are no tasks. -/
theorem peaceful_ofWorld (executor : Executor) (settings : RunnerSettings) {world : World}
    (hworld : world.Labelled) : (Machine.ofWorld settings world).Peaceful executor :=
  ⟨sound_ofWorld settings world, steered_ofWorld executor settings world, hworld, nofun, nofun,
    nofun⟩

/-- The turn of a task does regular work. -/
theorem Peaceful.regular_stepTask (h : m.Peaceful executor) :
    m.system.world.Regular (m.stepTask number).system.world := by
  -- Only the turn of a task that performs its run does anything to the world.
  by_cases hperforms : ∃ t, m.system.tasks[number]? = some t ∧ t.state.performs = true
  · obtain ⟨t, ht, hstate⟩ := hperforms
    obtain ⟨wait, resume, hrunning⟩ := TaskState.performs_iff.mp hstate
    have hminds := h.minds number t wait resume ht hrunning
    rcases stepTask_running ht hrunning with hsame | ⟨wait', resume', hstretch, -⟩ |
      ⟨result, hstretch, -⟩
    · rw [hsame]
      exact Std.Refl.refl m.system.world
    · exact (hminds.ran h.labelled hstretch).1
    · exact (hminds.finished hstretch).1
  · have hnone : ∀ t, m.system.tasks[number]? = some t → t.state.performs = false := fun t ht =>
      Bool.eq_false_iff.mpr fun hstate => hperforms ⟨t, ht, hstate⟩
    rw [world_stepTask hnone]
    exact Std.Refl.refl m.system.world

/-- Whatever move is made, regular work is done. -/
theorem Peaceful.regular (h : m.Peaceful executor) (hmove : move.isWork = false) :
    m.system.world.Regular (m.step executor move).system.world := by
  -- What leaves the registry alone is regular as soon as it goes onward.
  have hsame : ∀ {w w' : World}, w.Onward w' → w.Untouched w' → w.Regular w' :=
    fun honward huntouched => .of_eq honward huntouched.contexts
      fun _ _ hentry => huntouched.live ▸ hentry
  have hrefl : m.system.world.Regular m.system.world := Std.Refl.refl m.system.world
  cases move with
  | work _ => cases hmove
  | task number => exact h.regular_stepTask
  | start _ | wait _ | shutdown | sweep | prune _ | tick _ =>
    exact hsame (.of_supply rfl ⟨rfl, rfl, rfl⟩ rfl) ⟨rfl, rfl, rfl, rfl⟩
  | cancel run =>
    unfold step System.cancel
    dsimp only
    split
    · exact .of_eq (.of_supply rfl ⟨rfl, rfl, rfl⟩ rfl) rfl fun _ _ hentry => hentry
    · exact .of_eq (.of_supply rfl ⟨rfl, rfl, rfl⟩ rfl) rfl fun _ _ hentry => hentry
  | call number =>
    have hturn := m.turn_step executor (.call number)
    have honward : m.system.world.Onward (m.step executor (.call number)).system.world :=
      onward_stepCall executor m h.steered.unworked
    generalize m.step executor (.call number) = after, m.deed? (.call number) = done
      at hturn honward ⊢
    -- What a call may do to live contexts is to discard them, by id or by age.
    cases hturn with
    | still _ same | called same _ _ _ | read _ same | swept _ same _ => exact hsame honward same
    | refused _ | listed _ _ _ | slept _ _ | noticed _ _ | woken _ | collected _ | joined _
    | stripped _ | closed _ => exact hrefl
    | started _ => exact .of_eq honward rfl fun _ _ hentry => hentry
    | aborted _ _ => exact hsame honward (System.untouched_abortAll m.system)
    | @discarded _ run _ _ => exact World.regular_discardNow run m.system.world
    | @expired _ now _ world same =>
      refine .of_eq honward same.contexts fun run entry hentry => ?_
      change world.live.get? run = some entry at hentry
      rw [same.live] at hentry
      change (m.system.world.live.filter _).get? run = some entry at hentry
      rw [KeyMap.get?_filter] at hentry
      exact (Option.filter_eq_some_iff.mp hentry).1
    | worked there => exact absurd (h.steered.unworked _ _ there) nofun

/-- What holds before a move holds after it. -/
theorem Peaceful.step (h : m.Peaceful executor) (hkeeps : executor.KeepsStopping)
    (hmove : move.isWork = false) : (m.step executor move).Peaceful executor := by
  have hturn := m.turn_step executor move
  have hregular := h.regular hmove
  have hlength := hturn.length_tasks
  generalize m.step executor move = after, m.deed? move = done at hturn hregular hlength ⊢
  -- Each part of the invariant is carried over the turn on its own. For the tasks it matters where
  -- a task that performs its run comes from: it was there, has just gone on, or is new.
  refine ⟨hturn.sound h.sound, h.steered.turn hturn hmove hkeeps, hregular.labelled h.labelled,
    fun number found wait' resume' hfound hrunning => ?_, fun i j t t' ht ht' hflag => ?_,
    fun run flag hsignal => ?_⟩
  · have hperforms : found.state.performs = true :=
      TaskState.performs_iff.mpr ⟨wait', resume', hrunning⟩
    rcases hturn.running hfound hperforms with ⟨hthere, -⟩ |
      ⟨t, wait, resume, wait₂, resume₂, -, ht, hstate, hstretch, rfl⟩ |
      ⟨call, input, -, -, -, rfl⟩
    · exact (h.minds number found wait' resume' hthere hrunning).regular_of hregular
    · cases hrunning
      exact ((h.minds number t wait resume ht hstate).ran h.labelled hstretch).2.1
    · cases hrunning
      exact input.minds_perform executor _ _
  · have hold : ∀ {t : Task} {k : Nat}, m.system.tasks[k]? = some t →
        t.flag < m.system.world.flags.length := fun ht => h.steered.flagged _ _ ht
    -- Two tasks with one flag are the same task. An old task has a flag that was there before, and
    -- a new one has the next.
    rcases hturn.task ht with ⟨t₀, ht₀, -, hflag₀, -⟩ | ⟨-, -, -, -, hi, -, hnew, -⟩ <;>
      rcases hturn.task ht' with ⟨t₁, ht₁, -, hflag₁, -⟩ | ⟨-, -, -, -, hj, -, hnew', -⟩
    · exact h.distinct i j t₀ t₁ ht₀ ht₁ (hflag₀.symm.trans (hflag.trans hflag₁))
    · have hless := hold ht₀
      omega
    · have hless := hold ht₁
      omega
    · exact hi.trans hj.symm
  · rcases hturn.signal hsignal with hbefore | hnew
    · obtain ⟨number, t, ht, hrun, hflag⟩ := h.signalled run flag hbefore
      obtain ⟨t', ht', hrun', hflag'⟩ := hturn.task_stays ht
      exact ⟨number, t', ht', hrun'.trans hrun, hflag'.trans hflag⟩
    · exact hnew

/-- A machine is at peace after moves that begin no other work. -/
theorem peaceful_after {moves : List Move} (hkeeps : executor.KeepsStopping)
    (hmoves : ∀ move ∈ moves, move.isWork = false) (settings : RunnerSettings) {world : World}
    (hworld : world.Labelled) : (after executor settings world moves).Peaceful executor := by
  refine run_induction (peaceful_ofWorld executor settings hworld) fun before move hbefore h => ?_
  exact h.step hkeeps
    (hmoves move (hbefore.subset (List.mem_append_right before List.mem_cons_self)))

/-! ## What a task is spared -/

/-- Nothing happens to a run when no context is touched, none is made live and no flag is raised. -/
theorem spared_of_same {flag : Nat} (hsettings : w'.settings = w.settings)
    (hcontexts : w'.contexts = w.contexts)
    (hlive : ∀ entry, w'.live.get? run = some entry → ∃ entry', w.live.get? run = some entry')
    (hflag : w.flagged flag = false → w'.flagged flag = false) : w.Spared run flag w' := by
  refine ⟨hsettings, fun _ _ hc _ => hcontexts ▸ hc, fun hnone => ?_, hflag⟩
  refine Option.eq_none_iff_forall_ne_some.mpr fun entry hentry => ?_
  obtain ⟨entry', hentry'⟩ := hlive entry hentry
  rw [hnone] at hentry'
  cases hentry'

/-- Two tasks that perform their runs have different runs and different flags. -/
theorem Peaceful.strangers (h : m.Peaceful executor) (ht : m.system.tasks[number]? = some t)
    (hperforms : t.state.performs = true) {i : Nat} {t' : Task}
    (ht' : m.system.tasks[i]? = some t') (hperforms' : t'.state.performs = true)
    (hother : Move.task i ≠ .task number) : t.run ≠ t'.run ∧ t.flag ≠ t'.flag := by
  refine ⟨fun hrun => ?_, fun hflag => ?_⟩
  · have hpresent := h.sound.paired.present number t ht (TaskState.isOver_of_performs hperforms)
    have hpresent' := h.sound.paired.present i t' ht' (TaskState.isOver_of_performs hperforms')
    rw [hrun, hpresent'] at hpresent
    exact hother (congrArg Move.task (Option.some.inj hpresent))
  · exact hother (congrArg Move.task (h.distinct number i t t' ht ht' hflag).symm)

/-- The flag under the id of another run is not that of a task. -/
theorem Peaceful.signal_ne (h : m.Peaceful executor) (ht : m.system.tasks[number]? = some t)
    {flag : Nat} (hsignal : m.system.signals.get? run = some flag) (hrun : run ≠ t.run) :
    t.flag ≠ flag := by
  rintro rfl
  obtain ⟨i, t', ht', hrun', hflag⟩ := h.signalled run t.flag hsignal
  cases h.distinct i number t' t ht' ht hflag
  rw [ht] at ht'
  cases ht'
  exact hrun hrun'.symm

/-- Whatever move is made, a task that performs its run is spared by it, unless the move is its own
or someone asks the run to stop. -/
theorem Peaceful.spares (h : m.Peaceful executor) (hmove : move.isWork = false)
    (ht : m.system.tasks[number]? = some t) (hperforms : t.state.performs = true)
    (hother : move ≠ .task number) (hcancel : move ≠ .cancel t.run) :
    m.system.world.Spared t.run t.flag (m.step executor move).system.world := by
  have hturn := m.turn_step executor move
  have hsettings := (h.regular hmove).settings
  generalize m.step executor move = after, m.deed? move = done at hturn hsettings ⊢
  -- A turn that leaves registry and flags alone spares every run.
  have huntouched : m.system.world.Untouched after.system.world →
      m.system.world.Spared t.run t.flag after.system.world := by
    intro same
    refine spared_of_same hsettings same.contexts (fun entry hentry => ⟨entry, ?_⟩) fun hlow => ?_
    · exact same.live ▸ hentry
    · rw [World.flagged, same.flags]
      exact hlow
  -- The moves that could do harm are those of the run's own task, a request to stop it, and further
  -- work; all three are excluded.
  cases hturn with
  | still _ same | called same _ _ _ | read _ same | swept _ same _ => exact huntouched same
  | @raised run flag signal world same =>
    -- A flag is raised for another run, so it is another flag.
    refine spared_of_same hsettings same.contexts (fun entry hentry => ⟨entry, ?_⟩) fun hlow => ?_
    · exact same.live ▸ hentry
    · have hne := h.signal_ne ht signal fun hrun => hcancel (congrArg Move.cancel hrun)
      show world.flagged t.flag = false
      rw [World.flagged_set world m.system.world.flags flag t.flag true same.flags,
        if_neg fun hsame => hne hsame.1]
      exact hlow
  | began _ => cases hmove
  | awaited _ | stored _ _ | unflagged _ _ | left _ _ _ | refused _ | listed _ _ _ | slept _ _
  | noticed _ _ | woken _ | collected _ | joined _ | stripped _ | closed _ | pruned _ _ =>
    exact huntouched ⟨rfl, rfl, rfl, rfl⟩
  -- Another task goes on. Its run has another id and another flag, so it touches neither the
  -- context nor the entry nor the flag.
  | @ran i t' there wait resume running world wait' resume' stretch =>
    have hperforms' : t'.state.performs = true :=
      TaskState.performs_iff.mpr ⟨wait, resume, running⟩
    obtain ⟨hrun, hflag⟩ := h.strangers ht hperforms there hperforms' hother
    obtain ⟨-, -, hcontexts, hlive⟩ :=
      (h.minds i t' wait resume there running).ran h.labelled stretch
    obtain ⟨q, hq⟩ := h.steered.phased i t' there hperforms'
    obtain ⟨q', hstep, -⟩ := hq.ran running stretch
    refine ⟨hsettings, fun n c hc hown => hcontexts n c hc (hown ▸ hrun), fun hnone => ?_,
      fun hlow => (hstep.progress.flags.others t.flag hflag).trans hlow⟩
    exact (hlive t.run hrun).trans hnone
  | @finished i t' there wait resume running world result stretch =>
    have hperforms' : t'.state.performs = true :=
      TaskState.performs_iff.mpr ⟨wait, resume, running⟩
    obtain ⟨hrun, hflag⟩ := h.strangers ht hperforms there hperforms' hother
    obtain ⟨-, hcontexts, hlive⟩ := (h.minds i t' wait resume there running).finished stretch
    obtain ⟨q, hq⟩ := h.steered.phased i t' there hperforms'
    refine ⟨hsettings, fun n c hc hown => hcontexts n c hc (hown ▸ hrun), fun hnone => ?_,
      fun hlow => ((hq.finished running stretch).flags.others t.flag hflag).trans hlow⟩
    exact (hlive t.run hrun).trans hnone
  -- A task that starts adds a flag of its own behind the others.
  | started _ =>
    refine spared_of_same hsettings rfl (fun entry hentry => ⟨entry, hentry⟩) fun hlow => ?_
    have hused : t.flag < m.system.world.flags.length := h.steered.flagged number t ht
    show (m.system.world.flags ++ [false]).getD t.flag false = false
    rw [List.getD_eq_getElem?_getD, List.getElem?_append_left hused,
      ← List.getD_eq_getElem?_getD]
    exact hlow
  | aborted _ _ => exact huntouched (System.untouched_abortAll m.system)
  | @discarded _ other _ _ =>
    obtain ⟨hcontexts, -, hflags⟩ := Registry.discardNow_same other m.system.world
    refine spared_of_same hsettings hcontexts (fun entry hentry => ?_) fun hlow => ?_
    · -- An entry may be discarded meanwhile; that it stays is not claimed.
      change (Registry.discardNow other m.system.world).2.live.get? t.run = some entry at hentry
      rw [Registry.live_discardNow, KeyMap.get?_erase] at hentry
      by_cases hsame : t.run = other
      · rw [if_pos hsame] at hentry
        cases hentry
      · rw [if_neg hsame] at hentry
        exact ⟨entry, hentry⟩
    · show (Registry.discardNow other m.system.world).2.flagged t.flag = false
      rw [World.flagged, hflags]
      exact hlow
  | @expired _ now _ world same =>
    refine spared_of_same hsettings same.contexts (fun entry hentry => ?_) fun hlow => ?_
    · change world.live.get? t.run = some entry at hentry
      rw [same.live] at hentry
      change (m.system.world.live.filter _).get? t.run = some entry at hentry
      rw [KeyMap.get?_filter] at hentry
      exact ⟨entry, (Option.filter_eq_some_iff.mp hentry).1⟩
    · show world.flagged t.flag = false
      rw [World.flagged, same.flags]
      exact hlow
  | worked there => cases h.steered.unworked _ _ there

end Machine

end RunParams
