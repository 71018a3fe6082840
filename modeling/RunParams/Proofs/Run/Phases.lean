import RunParams.Proofs.Program.Phases
import RunParams.Proofs.Registry.Requests
import RunParams.Proofs.Run.Parts

/-!
# The phases of a run

A run is at first without a context. Once it has one it looks before each step whether it was asked
to stop, locks its context and takes the step; in the end it discards its context. What has to be
remembered between two stretches is a `Phase`: the context that the run has opened, and whether it
waits for the lock, so that it has looked already.

`RunInput.follows_perform` says what each stretch of a run does to what runs share. It opens one
context at most, in a stretch in which its id has none, and discards whatever its id has in the last
stretch, if it has opened one (`Stretch`, `Leaves`). It has no more than one step executed in a
stretch, and only if it has looked before. When its flag is raised it does not come to wait for the
lock again.
-/

namespace RunParams

/-- An executor never takes back that its run is asked to stop. -/
def Executor.KeepsStopping (executor : Executor) : Prop :=
  ∀ step context, (executor step context).KeepsTo fun s s' : Stage =>
    s.stopping = true → s'.stopping = true

/-- What a run does to the flags: it adds none, and changes at most its own. `insists` says that its
executor keeps that one raised. -/
structure World.FlagsKept (insists : Prop) (flag : Nat) (w w' : World) : Prop where
  count : w'.flags.length = w.flags.length
  others : ∀ other, other ≠ flag → w'.flagged other = w.flagged other
  own : insists → w.flagged flag = true → w'.flagged flag = true

/-- What a run with a flag does where it neither opens or discards a context nor has a step
executed. -/
structure World.Steady (insists : Prop) (flag : Nat) (w w' : World) : Prop where
  live : w'.live = w.live
  contexts : w.contexts.length ≤ w'.contexts.length
  calls : w'.calls = w.calls
  flags : w.FlagsKept insists flag w'

/-- A run with an id that had no live context gets one, with a number of its own. -/
structure World.Gains (run : String) (number : Nat) (w w' : World) : Prop where
  free : w.live.get? run = none
  live : ∃ createdAt, w'.live = w.live.insert run ⟨number, createdAt⟩
  unused : w.contexts.length ≤ number
  used : number < w'.contexts.length

/-- What is to be remembered of a run. -/
structure Phase where
  /-- The context that it has opened. -/
  own : Option Nat
  /-- Whether it has looked for its flag and waits for the lock to take a step. -/
  checked : Bool

namespace Phase

/-- The phase of a run that has not opened a context. -/
def opening : Phase := ⟨none, false⟩

/-- How many steps a run may have executed in the stretch that comes next. -/
def allowance (q : Phase) : Nat := if q.checked then 1 else 0

end Phase

/-- What a run with an id and a flag may have done since a stretch began in a phase, and which
context it has then. -/
structure Progress (insists : Prop) (run : String) (flag : Nat) (q : Phase) (w w' : World)
    (own : Option Nat) : Prop where
  live : own = q.own ∧ w'.live = w.live ∨
    q.own = none ∧ ∃ number, own = some number ∧ w.Gains run number w'
  contexts : w.contexts.length ≤ w'.contexts.length
  calls : ∃ added, w'.calls = w.calls ++ added ∧ added.length ≤ q.allowance
  flags : w.FlagsKept insists flag w'

/-- What a run does in a stretch that ends in a wait. -/
structure Stretch (insists : Prop) (run : String) (flag : Nat) (q : Phase) (w w' : World)
    (wait : Wait) (q' : Phase) : Prop where
  progress : Progress insists run flag q w w' q'.own
  /-- When its flag is raised it does not take the next step. -/
  heeds : insists → w.flagged flag = true → q'.checked = false
  locks : q'.checked = true → ∃ number, wait = .context number

/-- What a run does in its last stretch: it discards the context with its id, if it has opened one.
-/
structure Leaves (insists : Prop) (run : String) (flag : Nat) (q : Phase) (w w' : World) :
    Prop where
  live : q.own = none ∧ w'.live = w.live ∨ q.own ≠ none ∧ w'.live = w.live.erase run
  contexts : w.contexts.length ≤ w'.contexts.length
  calls : ∃ added, w'.calls = w.calls ++ added ∧ added.length ≤ q.allowance
  flags : w.FlagsKept insists flag w'

variable {insists : Prop} {run : String} {flag number : Nat} {q : Phase} {w w' w'' : World}
  {own : Option Nat} {ε α β : Type}

namespace World

/-- A flag that is set is raised or not, and the others stay as they are. -/
theorem flagged_set (w : World) (flags : List Bool) (flag other : Nat) (value : Bool)
    (h : w.flags = flags.set flag value) :
    w.flagged other =
      if other = flag ∧ flag < flags.length then value else flags.getD other false := by
  rw [flagged, h, List.getD_eq_getElem?_getD, List.getElem?_set, List.getD_eq_getElem?_getD]
  by_cases hother : other = flag
  · subst hother
    -- A flag of a number that was never given out is read as lowered, so setting it does nothing.
    by_cases hlength : other < flags.length
    · rw [if_pos rfl, if_pos hlength, if_pos ⟨rfl, hlength⟩]
      rfl
    · rw [if_pos rfl, if_neg hlength, if_neg fun h => hlength h.2,
        List.getElem?_eq_none (Nat.le_of_not_lt hlength)]
  · rw [if_neg fun h => hother h.symm, if_neg fun h => hother h.1]

/-- A raised flag is there. -/
theorem lt_of_flagged (h : w.flagged flag = true) : flag < w.flags.length := by
  refine Nat.lt_of_not_le fun hle => ?_
  rw [flagged, List.getD_eq_getElem?_getD, List.getElem?_eq_none hle] at h
  cases h

/-- Nothing happens to flags that stay as they are. -/
theorem FlagsKept.of_eq (h : w'.flags = w.flags) : w.FlagsKept insists flag w' := by
  have hsame : ∀ other, w'.flagged other = w.flagged other := fun other => by
    rw [flagged, flagged, h]
  exact ⟨congrArg List.length h, fun other _ => hsame other,
    fun _ hraised => (hsame flag).trans hraised⟩

/-- What happens to flags adds up. -/
theorem FlagsKept.trans (h : w.FlagsKept insists flag w') (h' : w'.FlagsKept insists flag w'') :
    w.FlagsKept insists flag w'' :=
  ⟨h'.count.trans h.count, fun other hne => (h'.others other hne).trans (h.others other hne),
    fun hinsists hraised => h'.own hinsists (h.own hinsists hraised)⟩

/-- A world in which what counts is the same. -/
theorem Steady.of_eq (hlive : w'.live = w.live) (hcontexts : w.contexts.length ≤ w'.contexts.length)
    (hcalls : w'.calls = w.calls) (hflags : w'.flags = w.flags) : w.Steady insists flag w' :=
  ⟨hlive, hcontexts, hcalls, .of_eq hflags⟩

/-- Nothing happens in no time. -/
theorem Steady.refl (w : World) : w.Steady insists flag w := .of_eq rfl (Nat.le_refl _) rfl rfl

/-- One steady piece of work after another is steady. -/
theorem Steady.trans (h : w.Steady insists flag w') (h' : w'.Steady insists flag w'') :
    w.Steady insists flag w'' :=
  ⟨h'.live.trans h.live, Nat.le_trans h.contexts h'.contexts, h'.calls.trans h.calls,
    h.flags.trans h'.flags⟩

instance : Std.Refl (Steady insists flag) := ⟨Steady.refl⟩

instance : Trans (Steady insists flag) (Steady insists flag) (Steady insists flag) :=
  ⟨Steady.trans⟩

end World

open World Program

/-! ## Progress in a stretch -/

/-- A stretch that has just begun has done nothing. -/
theorem Progress.refl (q : Phase) (w : World) : Progress insists run flag q w w q.own :=
  ⟨.inl ⟨rfl, rfl⟩, Nat.le_refl _, ⟨[], (List.append_nil _).symm, Nat.zero_le _⟩, .of_eq rfl⟩

/-- Steady work adds nothing to what was done. -/
theorem Progress.steady (h : Progress insists run flag q w w' own)
    (h' : w'.Steady insists flag w'') : Progress insists run flag q w w'' own := by
  obtain ⟨added, hcalls, hadded⟩ := h.calls
  refine ⟨?_, Nat.le_trans h.contexts h'.contexts, ⟨added, h'.calls.trans hcalls, hadded⟩,
    h.flags.trans h'.flags⟩
  -- Either nothing became live, or the context of the run did; what is steady changes neither.
  rcases h.live with ⟨hown, hlive⟩ | ⟨hnone, number, hown, hgains⟩
  · exact .inl ⟨hown, h'.live.trans hlive⟩
  · obtain ⟨createdAt, hlive⟩ := hgains.live
    exact .inr ⟨hnone, number, hown, hgains.free, ⟨createdAt, h'.live.trans hlive⟩, hgains.unused,
      Nat.lt_of_lt_of_le hgains.used h'.contexts⟩

/-- Steady work is progress. -/
theorem World.Steady.progress (h : w.Steady insists flag w') :
    Progress insists run flag q w w' q.own :=
  (Progress.refl q w).steady h

/-- Progress in a stretch that ends at a wait where nothing was looked for. -/
theorem Progress.stretch (h : Progress insists run flag q w w' own) (wait : Wait) :
    Stretch insists run flag q w w' wait ⟨own, false⟩ :=
  ⟨h, fun _ _ => rfl, nofun⟩

/-- Steady work goes along with a phase in which nothing was looked for. -/
theorem Paused.KeepsTo.follows_run {p : Paused World ε α} (h : p.KeepsTo (Steady insists flag) w)
    (run : String) (own : Option Nat) : p.Follows (Stretch insists run flag)
      (fun q w w' _ => q = ⟨own, false⟩ ∧ w.Steady insists flag w') ⟨own, false⟩ w :=
  h.follows fun _ _ wait hsteady => hsteady.progress.stretch wait

/-! ## Parts of a run -/

namespace RunInput

/-- Work on a context is done at once. -/
theorem onContext_ended (insists : Prop) (flag number : Nat) (doing : String)
    (action : Action Context Unit) (w : World) :
    ∃ w' r, onContext number doing action w = .ended w' r ∧ w.Steady insists flag w' := by
  -- What the action does to its one context, and what it logs, is all that happens to the world.
  let effect := action (w.contexts.getD number default)
  let left := { w with contexts := w.contexts.set number effect.state }.logged effect.events
  have hleft : w.Steady insists flag left :=
    .of_eq rfl (Nat.le_of_eq List.length_set.symm) rfl rfl
  have hdone : ∀ next : Except BindingError Unit → Program World Mishap Unit,
      ((World.act number action).attempt >>= next) w = next effect.result left := fun _ => rfl
  unfold onContext
  rw [hdone]
  cases effect.result with
  | ok _ => exact ⟨left, _, rfl, hleft⟩
  | error e => exact ⟨left, _, rfl, hleft⟩

/-- A look at what came of the creation of a context keeps to a relation if reports do. -/
theorem keepsTo_opened {rel : World → World → Prop} [Std.Refl rel] {input : RunInput}
    (hreport : ∀ w events, rel w (w.logged events)) (result : Except BindingError Nat) :
    -- Only a rejected definition is reported, and to report it is all that is done to the world.
    (input.opened result).KeepsTo rel := by
  cases result with
  | ok number => exact keepsTo_pure number
  | error e =>
    intro w
    obtain ⟨events, hended⟩ := input.opened_error e w
    rw [hended]
    exact hreport w events

/-- The opening of a context keeps to a relation if its creation does. -/
theorem keepsTo_openContext {rel : World → World → Prop} [Std.Refl rel] [Trans rel rel rel]
    {input : RunInput} (hreport : ∀ w events, rel w (w.logged events))
    {declarations : Declarations}
    (hcreate : (Registry.create input.run input.organization declarations).KeepsTo rel) :
    (input.openContext declarations).KeepsTo rel :=
  hcreate.attempt.bind (keepsTo_opened hreport)

/-- What an executor does on its stage is steady in the world. -/
theorem keepsTo_executor (executor : Executor) (flag : Nat) (step : Step) (context : Context) :
    ((executor step context).within (Stage.ofWorld flag) (Stage.toWorld flag)).KeepsTo
      (Steady executor.KeepsStopping flag) := by
  -- Of the stage nothing is known but that it keeps a request to stop, if the executor does so.
  have hstage : (executor step context).KeepsTo fun s s' : Stage =>
      executor.KeepsStopping → s.stopping = true → s'.stopping = true := by
    by_cases hkeeps : executor.KeepsStopping
    · exact (hkeeps step context).mono fun _ _ h _ => h
    · exact keepsTo_of_forall (fun _ _ h => absurd h hkeeps) _
  refine hstage.within fun w stage hstage => ?_
  have hflags : (stage.toWorld flag w).flags = w.flags.set flag stage.stopping := rfl
  refine ⟨rfl, Nat.le_refl _, rfl, ?_, fun other hother => ?_, fun hkeeps hraised => ?_⟩
  · -- The flags are those of before, except that the executor has had a say on the flag of its run.
    rw [hflags, List.length_set]
  · rw [flagged_set _ w.flags flag other stage.stopping hflags, if_neg fun h => hother h.1]
    rfl
  · rw [flagged_set _ w.flags flag flag stage.stopping hflags,
      if_pos ⟨rfl, lt_of_flagged hraised⟩]
    exact hstage hkeeps hraised

/-- The execution of a step is noted with the context that the executor sees. What follows keeps to
whatever the executor does in the world. -/
theorem execute_called (executor : Executor) (input : RunInput) (flag number : Nat) (step : Step)
    (w : World) :
    ∃ p : Program World Mishap Json,
      (∀ (rel : World → World → Prop) [Std.Refl rel] [Trans rel rel rel],
        ((executor step (w.contexts.getD number default)).within (Stage.ofWorld flag)
          (Stage.toWorld flag)).KeepsTo rel → p.KeepsTo rel) ∧
      execute executor input flag number step w = p { w with
        calls := w.calls ++ [⟨input.run, step.label, w.contexts.getD number default⟩] } := by
  refine ⟨_, fun rel _ _ hwork => ?_, execute_apply executor input flag number step w⟩
  refine hwork.attempt.bind fun r => ?_
  -- Whatever comes of the call, nothing is done after it but to return it.
  cases r with
  | ok output => exact keepsTo_pure output
  | error mishap => exact keepsTo_fail _

/-- The execution of a step is noted, and what follows is steady. -/
theorem execute_eq (executor : Executor) (input : RunInput) (flag number : Nat) (step : Step)
    (w : World) :
    ∃ (call : Call) (p : Program World Mishap Json),
      p.KeepsTo (Steady executor.KeepsStopping flag) ∧
        execute executor input flag number step w = p { w with calls := w.calls ++ [call] } := by
  obtain ⟨p, hp, hexecute⟩ := execute_called executor input flag number step w
  exact ⟨_, p, hp _ (keepsTo_executor executor flag step _), hexecute⟩

/-- What a run with a context has done when a part of it returns. -/
def Holding (executor : Executor) (input : RunInput) (flag number : Nat) (q : Phase)
    (start w : World) (_ : Except ε α) : Prop :=
  Progress executor.KeepsStopping input.run flag q start w (some number)

variable {executor : Executor} {input : RunInput} {start : World}

/-- Taking a step with the context locked: no more than one step is executed. -/
theorem follows_takeStep (step : Step) (h : start.Steady executor.KeepsStopping flag w) :
    (takeStep executor input flag number step w).Follows
      (Stretch executor.KeepsStopping input.run flag) (Holding executor input flag number)
      ⟨some number, true⟩ start := by
  obtain ⟨w₁, registered, hregister, h₁⟩ := onContext_ended executor.KeepsStopping flag
    number ("Failed to register parameters for step " ++ step.label)
    (Context.register step.parameters input.organization.id) w
  have hregistered := h.trans h₁
  show ((onContext number _ _ w).bind _).Follows _ _ _ _
  rw [hregister]
  -- A step stops at the first of its three parts that fails. Only the call in the middle can wait.
  cases registered with
  | error e => exact hregistered.progress
  | ok _ =>
    show ((execute executor input flag number step w₁).bind _).Follows _ _ _ _
    obtain ⟨call, p, hp, hexecute⟩ := execute_eq executor input flag number step w₁
    rw [hexecute]
    -- The run has made its one call, and from the next wait on it has to look at its flag again.
    have hcalled : Progress executor.KeepsStopping input.run flag ⟨some number, true⟩ start
        { w₁ with calls := w₁.calls ++ [call] } (some number) := by
      refine ⟨.inl ⟨rfl, hregistered.live⟩, hregistered.contexts, ⟨[call], ?_, Nat.le_refl 1⟩, ?_⟩
      · show w₁.calls ++ [call] = start.calls ++ [call]
        rw [hregistered.calls]
      · exact hregistered.flags.trans (.of_eq rfl)
    have hexecuted : (p { w₁ with calls := w₁.calls ++ [call] }).Follows
        (Stretch executor.KeepsStopping input.run flag) (Holding executor input flag number)
        ⟨some number, true⟩ start := by
      refine ((hp _).follows_from ⟨some number, false⟩ ?_ ?_).mono ?_
      · exact fun s wait hsteady => (hcalled.steady hsteady).stretch wait
      · exact fun a s wait hsteady => hsteady.progress.stretch wait
      · -- The call has returned within its first stretch, or in a later one that made no further
        -- call.
        rintro q a s r (⟨rfl, rfl, hsteady⟩ | ⟨rfl, hsteady⟩)
        · exact hcalled.steady hsteady
        · exact hsteady.progress
    refine hexecuted.bind ?_ ?_
    · intro q a s output hheld
      obtain ⟨s', recorded, hrecord, hs'⟩ := onContext_ended executor.KeepsStopping flag
        number ("Failed to record output of step " ++ step.label)
        (Context.recordOutput step.output output) s
      show ((onContext number _ _ s).bind _).Follows _ _ _ _
      rw [hrecord]
      -- A failure to record ends the step as well as its success, and the world is the same to us.
      cases recorded with
      | error e => exact hheld.steady hs'
      | ok _ => exact hheld.steady hs'
    · exact fun _ _ _ _ hheld => hheld

/-- Waiting for the lock of the context, then taking a step. -/
theorem follows_takeStepLocked (step : Step)
    (h : Progress executor.KeepsStopping input.run flag q start w (some number))
    (hlowered : w.flagged flag = false) :
    (takeStepLocked executor input flag number step w).Follows
      (Stretch executor.KeepsStopping input.run flag) (Holding executor input flag number)
      q start := by
  -- While the lock is awaited one call is allowed. Had the flag been raised, the step would not
  -- have been begun.
  refine ⟨⟨some number, true⟩, ⟨h, fun hinsists hraised => ?_, fun _ => ⟨number, rfl⟩⟩, ?_⟩
  · rw [h.flags.own hinsists hraised] at hlowered
    cases hlowered
  · -- With the lock the work goes on from any state that the wait may have led to.
    intro s
    let locked : World := { s with locks := ⟨number, flag⟩ :: s.locks }
    have hlocked : s.Steady executor.KeepsStopping flag locked := .of_eq rfl (Nat.le_refl _) rfl rfl
    have htaken : (takeStep executor input flag number step locked).Follows
        (Stretch executor.KeepsStopping input.run flag) (Holding executor input flag number)
        ⟨some number, true⟩ s := follows_takeStep step hlocked
    -- The lock is given up whether the step has failed or not.
    refine htaken.attempt.bind (fun q a w r hr => ?_) fun _ _ _ _ hr => ?_
    · obtain ⟨r', -, hheld⟩ := hr
      have hunlock : w.Steady executor.KeepsStopping flag (w.unlock flag) :=
        .of_eq rfl (Nat.le_refl _) rfl rfl
      exact hheld.steady hunlock
    · obtain ⟨_, _, hheld⟩ := hr
      exact hheld

/-- Taking the steps that are left. -/
theorem follows_takeSteps (steps : List Step) (taken : Nat) (outputs : KeyMap Json)
    (h : Progress executor.KeepsStopping input.run flag q start w (some number)) :
    (takeSteps executor input flag number taken outputs steps w).Follows
      (Stretch executor.KeepsStopping input.run flag) (Holding executor input flag number)
      q start := by
  -- The induction is on the steps still to take; the phase is generalized, since each step leaves
  -- another one.
  induction steps generalizing taken outputs q start w with
  | nil => exact h
  | cons step rest ih =>
    show ((if w.flagged flag then _ else _ : Program World Mishap Summary) w).Follows _ _ _ _
    -- The flag is looked at before each step. If it is raised, the run ends without a further call.
    cases hraised : w.flagged flag with
    | true =>
      have hreport : w.Steady executor.KeepsStopping flag
          (w.logged [.runCancelled input.run step.label]) := .of_eq rfl (Nat.le_refl _) rfl rfl
      exact h.steady hreport
    | false =>
      refine (follows_takeStepLocked step h hraised).bind ?_ fun _ _ _ _ hheld => hheld
      exact fun _ _ _ output hheld => ih (taken + 1) (outputs.insert step.output.key output) hheld

/-! ## The whole run -/

/-- Creating a context: the run gains one in the last stretch, or nothing has happened. -/
theorem follows_create (organization : Organization) (declarations : Declarations)
    (h : start.Steady insists flag w) :
    (Registry.create run organization declarations w).Follows (Stretch insists run flag)
      (fun q a s r => q = .opening ∧ Progress insists run flag q a s r.toOption)
      .opening start := by
  refine ⟨.opening, h.progress.stretch .turn, fun s => ?_⟩
  show ((if Registry.contains s run then _ else _ : Program World BindingError Nat) s).Follows
    _ _ _ _
  -- A run whose id is live is refused at the first look, before anything is bound.
  cases Registry.contains s run with
  | true => exact ⟨rfl, Progress.refl .opening s⟩
  | false =>
    let dated : World := { s with calendar := s.calendar + 1 }
    have hdated : s.Steady insists flag dated := .of_eq rfl (Nat.le_refl _) rfl rfl
    have hbind : (World.bind (.fresh s.settings run organization (s.calendar + 1))
        declarations).KeepsTo (Steady insists flag) := by
      refine KeepsTo.bind (keepsTo_beside fun w d => ?_) fun _ => keepsTo_pure _
      exact .of_eq rfl (Nat.le_refl _) rfl rfl
    show ((World.bind (.fresh s.settings run organization (s.calendar + 1)) declarations dated).bind
      fun c => Program.turn >>= fun _ => Registry.insert run c).Follows _ _ _ _
    -- While the declarations are bound only the stores, the draws and the log are used.
    have hbound := ((hbind dated).after hdated).follows_run run none
    refine hbound.bind ?_ ?_
    · rintro q a s c ⟨rfl, hsteady⟩
      refine ⟨.opening, hsteady.progress.stretch .turn, fun s => ?_⟩
      -- The second look and the insertion are one stretch.
      show (Registry.insert run c s).Follows _ _ _ _
      unfold Registry.insert
      -- The id may have become live while the declarations were bound.
      cases hcontains : Registry.contains s run with
      | true => exact ⟨rfl, Progress.refl .opening s⟩
      | false =>
        have hfree := Registry.contains_eq_false_iff.mp hcontains
        have hlength : s.contexts.length < (s.contexts ++ [c]).length := by
          rw [List.length_append]
          exact Nat.lt_succ_self _
        refine ⟨rfl, .inr ⟨rfl, s.contexts.length, rfl, hfree, ⟨c.createdAt, rfl⟩, Nat.le_refl _,
          hlength⟩, Nat.le_of_lt hlength, ⟨[], (List.append_nil _).symm, Nat.zero_le _⟩, ?_⟩
        exact .of_eq rfl
    · rintro q a s e ⟨rfl, hsteady⟩
      exact ⟨rfl, hsteady.progress⟩

/-- Opening the context of a run. -/
theorem follows_openContext (declarations : Declarations) (h : start.Steady insists flag w) :
    (openContext input declarations w).Follows (Stretch insists input.run flag)
      (fun q a s r => q = .opening ∧ Progress insists input.run flag q a s r.toOption)
      .opening start := by
  refine ((follows_create input.organization declarations h).attempt).bind ?_ ?_
  · -- A creation reports its end as a result, and a rejected definition is only logged.
    rintro q a s r ⟨r', hr, rfl, hprogress⟩
    cases hr
    cases r with
    | ok number => exact ⟨rfl, hprogress⟩
    | error e =>
      have hreport : s.Steady insists flag (s.logged [.definitionRejected input.run e]) :=
        .of_eq rfl (Nat.le_refl _) rfl rfl
      show ((if e.isDefinitionError then _ else _ : Program World Failure Nat) s).Follows _ _ _ _
      cases e.isDefinitionError with
      | true => exact ⟨rfl, hprogress.steady hreport⟩
      | false => exact ⟨rfl, hprogress⟩
  · -- What is attempted does not fail.
    rintro q a s e ⟨r', hr, -⟩
    cases hr

end RunInput

/-- The context of a run that has none is discarded just as well. -/
theorem Registry.live_discardNow (run : String) (w : World) :
    (Registry.discardNow run w).2.live = w.live.erase run := by
  unfold Registry.discardNow
  cases hcontains : Registry.contains w run with
  | true => rfl
  | false => exact (KeyMap.erase_of_get?_eq_none (contains_eq_false_iff.mp hcontains)).symm

/-- Discarding a context does nothing else. -/
theorem Registry.discardNow_same (run : String) (w : World) :
    (Registry.discardNow run w).2.contexts = w.contexts ∧
      (Registry.discardNow run w).2.calls = w.calls ∧
      (Registry.discardNow run w).2.flags = w.flags := by
  unfold Registry.discardNow
  split
  · exact ⟨rfl, rfl, rfl⟩
  · exact ⟨rfl, rfl, rfl⟩

/-- Without a context a run leaves as it has gone on. -/
theorem Progress.leaves (h : Progress insists run flag .opening w w' none) :
    Leaves insists run flag .opening w w' := by
  refine ⟨?_, h.contexts, h.calls, h.flags⟩
  rcases h.live with ⟨-, hlive⟩ | ⟨-, number, hown, -⟩
  · exact .inl ⟨rfl, hlive⟩
  · cases hown

/-- Discarding the context of a run, and nothing of any import after that. -/
theorem leaves_discard (number : Nat) (w : World) (events : List Event) :
    Leaves insists run flag ⟨some number, false⟩ w
      ((Registry.discardNow run w).2.logged events) := by
  obtain ⟨hcontexts, hcalls, hflags⟩ := Registry.discardNow_same run w
  refine ⟨.inr ⟨nofun, Registry.live_discardNow run w⟩, ?_, ⟨[], ?_, Nat.zero_le _⟩, .of_eq hflags⟩
  · exact Nat.le_of_eq (congrArg List.length hcontexts).symm
  · exact hcalls.trans (List.append_nil _).symm

namespace RunInput

/-- A run goes from phase to phase as `Stretch` says, and ends as `Leaves` says. -/
theorem follows_perform (executor : Executor) (input : RunInput) (flag : Nat) (w : World) :
    (input.perform executor flag w).Follows
      (Stretch executor.KeepsStopping input.run flag)
      (fun q a s _ => Leaves executor.KeepsStopping input.run flag q a s) .opening w := by
  unfold perform
  show ((Program.ofExcept _ w).bind _).Follows _ _ _ _
  -- Without declarations the run ends at once, and it has opened nothing.
  cases input.workflow.declarations input.inputs with
  | error e => exact (Progress.refl .opening w).leaves
  | ok declarations =>
    have hstarted : w.Steady executor.KeepsStopping flag (w.logged
        [.runStarting input.run input.organization.id input.workflow.steps.length]) :=
      .of_eq rfl (Nat.le_refl _) rfl rfl
    show ((openContext input declarations _).bind _).Follows _ _ _ _
    refine (follows_openContext declarations hstarted).bind ?_ ?_
    · rintro q a s number ⟨-, hopened⟩
      show (((takeSteps executor input flag number 0 ∅ input.workflow.steps s).attempt).bind
        _).Follows _ _ _ _
      refine ((follows_takeSteps input.workflow.steps 0 ∅ hopened).attempt).bind ?_ ?_
      · rintro q a s r ⟨result, hr, hheld⟩
        cases hr
        -- The turn before the context is discarded ends the stretch.
        refine ⟨⟨some number, false⟩, hheld.stretch .turn, fun s => ?_⟩
        -- The context is discarded whatever has come of the steps.
        cases r with
        | ok summary => exact leaves_discard number s _
        | error mishap => exact leaves_discard number s _
      · rintro q a s e ⟨_, hr, -⟩
        cases hr
    · -- A run that could not be opened discards nothing.
      rintro q a s e ⟨rfl, hprogress⟩
      exact hprogress.leaves

end RunInput

end RunParams
