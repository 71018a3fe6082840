import RunParams.Proofs.Replay.Steps

/-!
# What runs leave to themselves

Once its context has been created, a run takes nothing more from what all runs share, and it leaves
every context to its run (`World.Works`, `RunInput.works_takeSteps`). From start to end it is
regular work: settings stay as they are, nothing that was taken is given back, every context remains
that of its run, and what becomes live does so under the id of its run (`World.Regular`).
-/

namespace RunParams

open Program

variable {run : String} {w w' w'' : World}

namespace World

/-- What a run does to the world after its context has been created: it changes contexts, but they
remain those of their runs. -/
structure Works (w w' : World) : Prop where
  supply : w.around.SameSupply w'.around
  calendar : w'.calendar = w.calendar
  settings : w'.settings = w.settings
  live : w'.live = w.live
  runs : ∀ (n : Nat) c, w.contexts[n]? = some c →
    ∃ c', w'.contexts[n]? = some c' ∧ c'.run = c.run

/-- What is left alone but for the log, the locks, the permits, the flags and the calls. -/
theorem Works.of_eq (haround : w.around.SameSupply w'.around) (hcalendar : w'.calendar = w.calendar)
    (hsettings : w'.settings = w.settings) (hlive : w'.live = w.live)
    (hcontexts : w'.contexts = w.contexts) : w.Works w' :=
  ⟨haround, hcalendar, hsettings, hlive, fun _ c hc => ⟨c, hcontexts ▸ hc, rfl⟩⟩

/-- One piece of such work after another is such work. -/
theorem Works.trans (h : w.Works w') (h' : w'.Works w'') : w.Works w'' := by
  have hsupply := h.supply
  have hsupply' := h'.supply
  refine ⟨⟨hsupply'.backend.trans hsupply.backend, hsupply'.asked.trans hsupply.asked,
    hsupply'.draws.trans hsupply.draws⟩, h'.calendar.trans h.calendar,
    h'.settings.trans h.settings, h'.live.trans h.live, fun n c hc => ?_⟩
  obtain ⟨c', hc', hrun⟩ := h.runs n c hc
  obtain ⟨c'', hc'', hrun'⟩ := h'.runs n c' hc'
  exact ⟨c'', hc'', hrun'.trans hrun⟩

instance : Std.Refl Works := ⟨fun _ => .of_eq ⟨rfl, rfl, rfl⟩ rfl rfl rfl rfl⟩

instance : Trans Works Works Works := ⟨Works.trans⟩

instance : Std.Refl Later := ⟨Later.refl⟩

instance : Trans Later Later Later := ⟨Later.trans⟩

/-- A report takes nothing. -/
theorem later_logged (w : World) (events : List Event) : w.Later (w.logged events) :=
  ⟨⟨.refl _, rfl, List.prefix_refl _⟩, Nat.le_refl _⟩

/-- To discard a context takes nothing. -/
theorem later_discardNow (w : World) : w.Later (Registry.discardNow run w).2 := by
  unfold Registry.discardNow
  split
  · exact ⟨⟨.refl _, rfl, List.prefix_refl _⟩, Nat.le_refl _⟩
  · exact .refl w

/-- Such work takes nothing. -/
theorem Works.later (h : w.Works w') : w.Later w' := ⟨h.supply.later, Nat.le_of_eq h.calendar.symm⟩

/-- Nothing is taken when what can be taken is the same and the calendar is not read. -/
theorem taken_eq_none (hsupply : w.around.SameSupply w'.around)
    (hcalendar : w'.calendar = w.calendar) : w.taken w' = .none := by
  have hids := congrArg Takings.ids hsupply.taken
  have hanswers := congrArg Takings.answers hsupply.taken
  ext1
  · exact hids
  · exact hanswers
  · show List.range' (w.calendar + 1) (w'.calendar - w.calendar) = []
    rw [hcalendar, Nat.sub_self]
    rfl

/-- What is taken in the surroundings alone. -/
theorem taken_around (w : World) (s : Surroundings) :
    w.taken { w with around := s } = w.around.taken s := by
  ext1
  · rfl
  · rfl
  · show List.range' (w.calendar + 1) (w.calendar - w.calendar) = []
    rw [Nat.sub_self]
    rfl

/-- What is taken by reading the calendar once. -/
theorem taken_calendar (w : World) :
    w.taken { w with calendar := w.calendar + 1 } = ⟨[], [], [w.calendar + 1]⟩ := by
  have hnothing : w.around.taken w.around = .none := Surroundings.meter.taken_self w.around
  have hids := congrArg Takings.ids hnothing
  have hanswers := congrArg Takings.answers hnothing
  ext1
  · exact hids
  · exact hanswers
  · show List.range' (w.calendar + 1) (w.calendar + 1 - w.calendar) = [w.calendar + 1]
    rw [Nat.add_sub_cancel_left]
    rfl

/-- Every live context belongs to the run under whose id it is live. -/
def Labelled (w : World) : Prop :=
  ∀ run entry, w.live.get? run = some entry →
    ∃ c, w.contexts[entry.context]? = some c ∧ c.run = run

/-- The settings stay, and nothing is given back. -/
structure Onward (w w' : World) : Prop where
  settings : w'.settings = w.settings
  later : w.Later w'

/-- It is onward to take nothing. -/
theorem Onward.of_supply (hsettings : w'.settings = w.settings)
    (hsupply : w.around.SameSupply w'.around) (hcalendar : w'.calendar = w.calendar) :
    w.Onward w' :=
  ⟨hsettings, hsupply.later, Nat.le_of_eq hcalendar.symm⟩

/-- It is onward to do nothing. -/
theorem Onward.refl (w : World) : w.Onward w := ⟨rfl, .refl w⟩

/-- What goes onward twice goes onward. -/
theorem Onward.trans (h : w.Onward w') (h' : w'.Onward w'') : w.Onward w'' :=
  ⟨h'.settings.trans h.settings, h.later.trans h'.later⟩

/-- Every context remains that of its run, and what becomes live does so under the id of its run. -/
structure Regular (w w' : World) : Prop extends Onward w w' where
  runs : ∀ (n : Nat) c, w.contexts[n]? = some c →
    ∃ c', w'.contexts[n]? = some c' ∧ c'.run = c.run
  labelled : w.Labelled → w'.Labelled

/-- It is regular to make nothing live. -/
theorem Regular.of_live (honward : w.Onward w')
    (hruns : ∀ (n : Nat) c, w.contexts[n]? = some c →
      ∃ c', w'.contexts[n]? = some c' ∧ c'.run = c.run)
    (hlive : ∀ run entry, w'.live.get? run = some entry → w.live.get? run = some entry) :
    w.Regular w' := by
  refine ⟨honward, hruns, fun hlabelled run entry hentry => ?_⟩
  obtain ⟨c, hc, hrun⟩ := hlabelled run entry (hlive run entry hentry)
  obtain ⟨c', hc', hrun'⟩ := hruns entry.context c hc
  exact ⟨c', hc', hrun'.trans hrun⟩

/-- It is regular to leave the contexts alone. -/
theorem Regular.of_eq (honward : w.Onward w') (hcontexts : w'.contexts = w.contexts)
    (hlive : ∀ run entry, w'.live.get? run = some entry → w.live.get? run = some entry) :
    w.Regular w' :=
  .of_live honward (fun _ c hc => ⟨c, hcontexts ▸ hc, rfl⟩) hlive

/-- What is regular twice is regular. -/
theorem Regular.trans (h : w.Regular w') (h' : w'.Regular w'') : w.Regular w'' := by
  refine ⟨h.toOnward.trans h'.toOnward, fun n c hc => ?_,
    fun hlabelled => h'.labelled (h.labelled hlabelled)⟩
  obtain ⟨c', hc', hrun⟩ := h.runs n c hc
  obtain ⟨c'', hc'', hrun'⟩ := h'.runs n c' hc'
  exact ⟨c'', hc'', hrun'.trans hrun⟩

instance : Std.Refl Regular := ⟨fun w => .of_eq (.refl w) rfl fun _ _ h => h⟩

instance : Trans Regular Regular Regular := ⟨Regular.trans⟩

/-- It is regular to discard the context of a run. -/
theorem regular_discardNow (run : String) (w : World) :
    w.Regular (Registry.discardNow run w).2 := by
  have hcontexts := (Registry.discardNow_same run w).1
  have hsettings : (Registry.discardNow run w).2.settings = w.settings := by
    unfold Registry.discardNow
    split
    · rfl
    · rfl
  refine .of_eq ⟨hsettings, later_discardNow w⟩ hcontexts fun other entry hentry => ?_
  rw [Registry.live_discardNow, KeyMap.get?_erase] at hentry
  -- Only the entry of this run is erased.
  by_cases hother : other = run
  · rw [if_pos hother] at hentry
    cases hentry
  · rwa [if_neg hother] at hentry

/-- What a run does after its context has been created is regular. -/
theorem Works.regular (h : w.Works w') : w.Regular w' :=
  .of_live ⟨h.settings, h.later⟩ h.runs fun _ _ hentry => h.live ▸ hentry

end World

/-! ## The steps of a run -/

namespace RunInput

/-- Work on a context that leaves it to its run leaves all contexts to their runs. -/
theorem works_onContext (number : Nat) (doing : String) {action : Action Context Unit}
    (haction : ∀ c, (action c).state.run = c.run) :
    (onContext number doing action).KeepsTo World.Works := by
  have hact : (World.act number action).KeepsTo World.Works := by
    intro w
    refine ⟨⟨rfl, rfl, rfl⟩, rfl, rfl, rfl, fun n c hc => ?_⟩
    show ∃ c', (w.contexts.set number _)[n]? = some c' ∧ c'.run = c.run
    -- The action is on this one context, which stays the context of its run.
    by_cases hn : number = n
    · subst hn
      have hused : number < w.contexts.length := (List.getElem?_eq_some_iff.mp hc).1
      rw [List.getElem?_set_self hused, World.getD_contexts hc]
      exact ⟨_, rfl, haction c⟩
    · rw [List.getElem?_set_ne hn]
      exact ⟨c, hc, rfl⟩
  refine hact.attempt.bind fun r => ?_
  cases r with
  | ok _ => exact keepsTo_pure _
  | error e => exact keepsTo_fail _

/-- What a run does to execute a step leaves all contexts to their runs. -/
theorem works_execute (executor : Executor) (input : RunInput) (flag number : Nat) (step : Step) :
    (execute executor input flag number step).KeepsTo World.Works := by
  intro w
  obtain ⟨p, hp, hexecute⟩ := execute_called executor input flag number step w
  have hstage : (executor step (w.contexts.getD number default)).KeepsTo
      fun _ _ : Stage => True := keepsTo_of_forall (fun _ _ => trivial) _
  have hwork : ((executor step (w.contexts.getD number default)).within (Stage.ofWorld flag)
      (Stage.toWorld flag)).KeepsTo World.Works :=
    hstage.within fun _ _ _ => .of_eq ⟨rfl, rfl, rfl⟩ rfl rfl rfl rfl
  rw [hexecute]
  exact (hp World.Works hwork _).after (.of_eq ⟨rfl, rfl, rfl⟩ rfl rfl rfl rfl)

/-- What a run does to take its steps leaves all contexts to their runs. -/
theorem works_takeSteps (executor : Executor) (input : RunInput) (flag number : Nat) (taken : Nat)
    (outputs : KeyMap Json) (steps : List Step) :
    (takeSteps executor input flag number taken outputs steps).KeepsTo World.Works := by
  have hstep : ∀ step, (takeStep executor input flag number step).KeepsTo World.Works := by
    intro step
    have hregister : ∀ c,
        (Context.register step.parameters input.organization.id c).state.run = c.run :=
      fun c => Context.run_change c (.register step.parameters input.organization.id)
    refine (works_onContext number _ hregister).bind fun _ => ?_
    refine (works_execute executor input flag number step).bind fun output => ?_
    exact (works_onContext number _ fun c => Context.run_change c (.record step.output output)).bind
      fun _ => keepsTo_pure output
  have hlocked : ∀ step,
      (takeStepLocked executor input flag number step).KeepsTo World.Works := by
    intro step
    have hlock : (World.lock number flag : Program World Mishap Unit).KeepsTo World.Works :=
      (keepsTo_waitFor (.context number)).bind
        fun _ _ => .of_eq ⟨rfl, rfl, rfl⟩ rfl rfl rfl rfl
    have hunlock : (Program.modify (·.unlock flag) : Program World Mishap Unit).KeepsTo
        World.Works := fun _ => .of_eq ⟨rfl, rfl, rfl⟩ rfl rfl rfl rfl
    exact hlock.bind fun _ => (hstep step).attempt.bind fun result =>
      hunlock.bind fun _ => keepsTo_ofExcept result
  induction steps generalizing taken outputs with
  | nil => exact keepsTo_pure _
  | cons step rest ih =>
    refine keepsTo_get.bind fun w => ?_
    -- A raised flag ends the steps with a report.
    cases w.flagged flag with
    | true =>
      have hreport : (World.report (.runCancelled input.run step.label) :
          Program World Mishap Unit).KeepsTo World.Works :=
        fun _ => .of_eq ⟨rfl, rfl, rfl⟩ rfl rfl rfl rfl
      exact hreport.bind fun _ => keepsTo_pure _
    | false => exact (hlocked step).bind fun output => ih _ _

end RunInput

end RunParams
