import RunParams.Proofs.Replay.Creation

/-!
# A run repeats itself

The result of a run depends on what it takes from what all runs share, that is, on the ids that it
draws, the answers of the stores and, if its executor looks at it, the date of its context, and on
nothing else: not on what others do to the log, the clock, the locks or other contexts, and not on
whether its own context stays live (`RunInput.repeats_perform`).

A run takes something only while its context is created. After that its result is a function of the
context (`RunInput.conclude`).
-/

namespace RunParams

open Program

variable {flag number : Nat} {w w' t : World} {took : Takings}

/-! ## What a run keeps to -/

namespace RunInput

variable {executor : Executor} {input : RunInput}

section KeepsTo

variable {rel : World → World → Prop} [Std.Refl rel] [Trans rel rel rel]

/-- A run keeps to a relation, once it has its context, if its steps do. -/
theorem keepsTo_finish (hreport : ∀ w events, rel w (w.logged events))
    (hdiscard : ∀ w, rel w (Registry.discardNow input.run w).2)
    (hworks : ∀ w w', w.Works w' → rel w w') (number : Nat) :
    (input.finish executor flag number).KeepsTo rel := by
  have hevent : ∀ {ε : Type} (event : Event),
      (World.report event : Program World ε Unit).KeepsTo rel := fun event w => hreport w [event]
  have hsteps := (works_takeSteps executor input flag number 0 ∅ input.workflow.steps).mono hworks
  have hdiscarded : (Registry.discard input.run : Program World Failure Bool).KeepsTo rel :=
    (keepsTo_waitFor .turn).bind fun _ w => hdiscard w
  refine hsteps.attempt.bind fun result => hdiscarded.bind fun _ => ?_
  cases result with
  | ok summary => exact (hevent _).bind fun _ => keepsTo_pure summary
  | error mishap => exact (hevent _).bind fun _ => keepsTo_fail _

/-- A run keeps to a relation if the creation of its context and its steps do. -/
theorem keepsTo_perform (hreport : ∀ w events, rel w (w.logged events))
    (hdiscard : ∀ w, rel w (Registry.discardNow input.run w).2)
    (hworks : ∀ w w', w.Works w' → rel w w')
    (hcreate : ∀ declarations,
      (Registry.create input.run input.organization declarations).KeepsTo rel) :
    (input.perform executor flag).KeepsTo rel := by
  rw [perform_eq]
  refine (keepsTo_ofExcept _).bind fun declarations => ?_
  refine KeepsTo.bind (fun w => hreport w _) fun _ => ?_
  exact (keepsTo_openContext hreport (hcreate declarations)).bind
    (keepsTo_finish hreport hdiscard hworks)

end KeepsTo

/-- A run is regular work from start to end. -/
theorem regular_perform (executor : Executor) (input : RunInput) (flag : Nat) :
    (input.perform executor flag).KeepsTo World.Regular :=
  keepsTo_perform
    (fun w events => .of_eq ⟨rfl, World.later_logged w events⟩ rfl fun _ _ h => h)
    (World.regular_discardNow input.run) (fun _ _ h => h.regular)
    fun _ => Registry.regular_create _ _ _

/-! ## What the result depends on -/

/-- The result of a run that is not asked to stop, when the binding of its declarations has come to
an error or to a context. -/
def conclude (answer : Step → Context → Except Mishap Json) (input : RunInput) :
    Except BindingError Context → Except Failure Summary
  | .error e =>
    .error ((Failure.ofBinding e).whileDoing ("Failed to initialize run " ++ input.run))
  | .ok c => (resultOf answer input 0 ∅ input.workflow.steps c).mapError (·.toFailure input.run)

variable {answer : Step → Context → Except Mishap Json} {rely : World → World → Prop}
  {binding : Desk → Desk → Prop} {c : Context} {declarations : Declarations}
  {r r' : Except Failure Summary}

/-- Once a run has its context, its result is a function of the context. -/
theorem of_finish (hcomputes : executor.Computes answer)
    (hrely : ∀ w w', rely w w' → w.Spared input.run flag w') (hrun : c.run = input.run)
    (hhas : w.Has number c flag) (h : (input.finish executor flag number w).CanEnd rely t r) :
    r = input.conclude answer (.ok c) := by
  have hsteps : ∀ {u : World} {result : Except Mishap Summary},
      (takeSteps executor input flag number 0 ∅ input.workflow.steps w).CanEnd rely u result →
      result = resultOf answer input 0 ∅ input.workflow.steps c :=
    fun hend => of_takeSteps hcomputes hrely hrun hhas hend
  show r = (resultOf answer input 0 ∅ input.workflow.steps c).mapError (·.toFailure input.run)
  rcases Paused.CanEnd.of_bind h with ⟨u, result, htaken, h⟩ | ⟨e, -, htaken⟩
  · obtain ⟨result, hresult, hinner⟩ := htaken.of_attempt
    cases hresult
    rw [← hsteps hinner]
    -- The context is discarded after the outcome of the steps is settled.
    rcases Paused.CanEnd.of_bind h with ⟨v, _, -, h⟩ | ⟨e, -, hdiscard⟩
    · cases result with
      | ok summary => exact h.of_ended.2
      | error mishap => exact h.of_ended.2
    · rcases Paused.CanEnd.of_bind hdiscard with ⟨v, _, -, hdiscarded⟩ | ⟨e, -, hwait⟩
      · cases hdiscarded.of_ended.2
      · cases hwait.of_waitFor.2
  · obtain ⟨result, hresult, -⟩ := htaken.of_attempt
    cases hresult

/-- A run opens its context by creating it. -/
theorem of_openContext_ends {r : Except Failure Nat}
    (h : (input.openContext declarations w).Ends World.meter rely w took t r) :
    ∃ (first rest : Takings) (u : World) (created : Except BindingError Nat),
      took = first ++ rest ∧
      (Registry.create input.run input.organization declarations w).Ends World.meter rely w first u
        created ∧
      (∀ number, created = .ok number → r = .ok number ∧ t = u) ∧
      ∀ e, created = .error e → r = .error
        ((Failure.ofBinding e).whileDoing ("Failed to initialize run " ++ input.run)) := by
  have hcreate : ((Registry.create input.run input.organization declarations).attempt :
      Program World Failure (Except BindingError Nat)).KeepsTo World.meter.later :=
    (Registry.later_create input.run input.organization declarations).attempt
  have hopened : ∀ result, (input.opened result).KeepsTo World.meter.later :=
    keepsTo_opened World.later_logged
  rw [openContext_eq] at h
  rcases Paused.Ends.of_bind (hcreate w) (fun result => hopened result) h with
    ⟨u, result, first, rest, rfl, hfirst, hrest⟩ | ⟨e, -, hfirst⟩
  · obtain ⟨result, hresult, hinner⟩ := hfirst.of_attempt
    cases hresult
    refine ⟨first, rest, u, result, rfl, hinner, fun number hnumber => ?_, fun e he => ?_⟩
    · -- A context that was created is handed on without a further wait.
      subst hnumber
      obtain ⟨-, rfl, rfl⟩ := Paused.Ends.of_ended hrest
      exact ⟨rfl, rfl⟩
    · subst he
      obtain ⟨events, hended⟩ := input.opened_error e u
      rw [hended] at hrest
      exact (Paused.Ends.of_ended hrest).2.2
  · obtain ⟨result, hresult, -⟩ := hfirst.of_attempt
    cases hresult

/-- A run that can be started opens its context with a fresh one, and what the binding of the
declarations comes to tells its result. -/
theorem of_perform_ends (hcomputes : executor.Computes answer)
    (hrely : ∀ w w', rely w w' → w.Spared input.run flag w')
    (hbinding : ∀ (d : Desk) (w w' : World), rely { w with around := d.around } w' →
      binding d ⟨d.context, w'.around⟩)
    (hsame : ∀ d d', binding d d' → d'.context = d.context)
    (habsent : w.live.get? input.run = none) (hlow : w.flagged flag = false)
    (hdeclarations : input.workflow.declarations input.inputs = .ok declarations)
    (h : (input.perform executor flag w).Ends World.meter rely w took t r) :
    ∃ (found : World) (bound after : Takings) (d : Desk) (result : Except BindingError Unit),
      rely (w.logged
        [.runStarting input.run input.organization.id input.workflow.steps.length]) found ∧
      took = ⟨[], [], [found.calendar + 1]⟩ ++ (bound ++ after) ∧
      (Desk.bindAll declarations (.fresh found input.run input.organization)).Ends
        (Surroundings.meter.on Desk.around) binding (.fresh found input.run input.organization)
        bound d result ∧
      Desk.SameOrigin (.fresh found input.run input.organization) d ∧
      r = input.conclude answer (result.map fun _ => d.context) := by
  let started : World := w.logged
    [.runStarting input.run input.organization.id input.workflow.steps.length]
  have hopen : (input.openContext declarations).KeepsTo World.meter.later :=
    keepsTo_openContext World.later_logged (Registry.later_create _ _ declarations)
  have hfinish : ∀ number, (input.finish executor flag number).KeepsTo World.meter.later :=
    keepsTo_finish World.later_logged World.later_discardNow fun _ _ h => h.later
  rw [perform_eq, hdeclarations] at h
  change ((input.openContext declarations >>= input.finish executor flag) started).Ends
    _ _ _ _ _ _ at h
  -- The report is in the same stretch, but takes nothing.
  have hstarted : World.meter.later w started := World.later_logged w _
  have hnothing : World.meter.taken w started = .none := World.taken_eq_none ⟨rfl, rfl, rfl⟩ rfl
  obtain ⟨took, rfl, hrest⟩ := Paused.Ends.since hstarted ((hopen.bind hfinish) started) h
  rw [hnothing, Takings.none_append]
  rcases Paused.Ends.of_bind (hopen started) (fun number => hfinish number) hrest with
    ⟨u, number, first, second, rfl, hopened, hfinished⟩ | ⟨e, rfl, hopened⟩
  · obtain ⟨first, rest, u', created, rfl, hcreated, hok, herror⟩ := of_openContext_ends hopened
    obtain ⟨found, bound, after, d, result, hfound, rfl, hbound, horigin, hfailed, hdone⟩ :=
      Registry.of_create_ends (w := started) hrely hbinding hsame habsent hlow hcreated
    refine ⟨found, bound, after ++ (rest ++ second), d, result, hfound, ?_, hbound, horigin, ?_⟩
    · simp only [Takings.append_assoc]
    · -- What the binding came to decides what the run comes to.
      cases result with
      | error e => cases herror e (hfailed e rfl)
      | ok _ =>
        obtain ⟨_, rfl, hhas⟩ := hdone rfl
        obtain ⟨hnumber, rfl⟩ := hok _ rfl
        cases hnumber
        exact of_finish hcomputes hrely horigin.run hhas hfinished.canEnd
  · obtain ⟨first, rest, u', created, rfl, hcreated, hok, herror⟩ := of_openContext_ends hopened
    obtain ⟨found, bound, after, d, result, hfound, rfl, hbound, horigin, hfailed, hdone⟩ :=
      Registry.of_create_ends (w := started) hrely hbinding hsame habsent hlow hcreated
    refine ⟨found, bound, after ++ rest, d, result, hfound, ?_, hbound, horigin, ?_⟩
    · simp only [Takings.append_assoc]
    · cases result with
      | error e' =>
        cases herror e' (hfailed e' rfl)
        rfl
      | ok _ =>
        obtain ⟨_, rfl, -⟩ := hdone rfl
        cases (hok _ rfl).1

end RunInput

/-- A run is left alone: nobody takes anything or touches what runs share. -/
structure World.LeftAlone (w w' : World) : Prop where
  supply : w.around.SameSupply w'.around
  calendar : w'.calendar = w.calendar
  settings : w'.settings = w.settings
  contexts : w'.contexts = w.contexts
  live : w'.live = w.live
  flags : w'.flags = w.flags

namespace World

/-- Who is left alone is spared. -/
theorem LeftAlone.spared (h : w.LeftAlone w') (run : String) (flag : Nat) :
    w.Spared run flag w' := by
  refine ⟨h.settings, fun _ _ hc _ => h.contexts ▸ hc, fun hnone => h.live ▸ hnone, fun hlow => ?_⟩
  rw [flagged, h.flags]
  exact hlow

/-- Time that passes leaves a run alone. -/
theorem leftAlone_pass (wait : Wait) (w : World) : w.LeftAlone (w.pass wait) := by
  cases wait with
  | turn | clock _ | context _ | permit _ => exact ⟨⟨rfl, rfl, rfl⟩, rfl, rfl, rfl, rfl, rfl⟩

end World

namespace RunInput

variable {executor : Executor} {input : RunInput} {answer : Step → Context → Except Mishap Json}
  {t' : World} {flag' : Nat} {r r' : Except Failure Summary}

/-- A run repeats itself: among others who spare it, it ends with the same result as when it is left
alone and given the ids and the answers that it has taken among the others. The two may have
different dates, unless the executor looks at them. -/
theorem repeats_perform (hcomputes : executor.Computes answer)
    (habsent : w.live.get? input.run = none) (hlow : w.flagged flag = false)
    (h : (input.perform executor flag w).Ends World.meter (World.Spared input.run flag) w took t r)
    (habsent' : w'.live.get? input.run = none) (hlow' : w'.flagged flag' = false)
    (hsettings : w'.settings = w.settings) (hgives : w'.around.Gives took)
    (hdates : IgnoresDates answer ∨ ∀ date ∈ took.dates, date = w'.calendar + 1)
    (h' : (input.perform executor flag' w').CanEnd World.LeftAlone t' r') : r' = r := by
  obtain ⟨took', h'⟩ := h'.ends World.meter w'
  have hbinding : ∀ (d : Desk) (w w' : World), World.Spared input.run flag
      { w with around := d.around } w' → Desk.SameContext d ⟨d.context, w'.around⟩ :=
    fun _ _ _ _ => rfl
  let Alone (d d' : Desk) : Prop := d'.context = d.context ∧ d.around.SameSupply d'.around
  have hbinding' : ∀ (d : Desk) (w w' : World), World.LeftAlone { w with around := d.around } w' →
      Alone d ⟨d.context, w'.around⟩ := fun _ _ _ h => ⟨rfl, h.supply⟩
  have hsame : ∀ d d', Desk.SameContext d d' → d'.context = d.context := fun _ _ h => h
  have hsame' : ∀ d d', Alone d d' → d'.context = d.context := fun _ _ h => h.1
  -- The declarations come from the workflow and the inputs, so they are the same both times.
  cases hdeclarations : input.workflow.declarations input.inputs with
  | error e =>
    rw [perform_eq, hdeclarations] at h h'
    exact (Paused.Ends.of_ended h').2.2.trans (Paused.Ends.of_ended h).2.2.symm
  | ok declarations =>
    obtain ⟨found, bound, after, d, result, hfound, rfl, hbound, horigin, rfl⟩ :=
      of_perform_ends hcomputes (fun _ _ h => h) hbinding hsame habsent hlow hdeclarations h
    obtain ⟨found', bound', after', d', result', hfound', -, hbound', -, rfl⟩ :=
      of_perform_ends hcomputes (fun _ _ h => h.spared _ _) hbinding' hsame' habsent' hlow'
        hdeclarations h'
    -- The contexts differ at most in their dates, at the beginning and so at the end.
    let date := found'.calendar + 1
    have halike : (Desk.fresh found' input.run input.organization).context =
        (Desk.fresh found input.run input.organization).context.dated date := by
      have hsame : found'.settings = found.settings :=
        hfound'.settings.trans (hsettings.trans hfound.settings.symm)
      show Context.fresh found'.settings _ _ _ = (Context.fresh found.settings _ _ _).dated date
      rw [hsame]
      rfl
    have hleft : found'.around.Gives (bound ++ after) :=
      hfound'.supply.gives ⟨hgives.ids, hgives.answers⟩
    obtain ⟨hresult, hcontext, -⟩ :=
      (Desk.repeats_bindAll declarations).repeats _ _ _ _ _ _ _ _ halike hleft hbound
        hbound'.canEnd
    have hdated : IgnoresDates answer ∨ date = d.context.createdAt := by
      refine hdates.imp_right fun hdates => ?_
      have hcalendar : found'.calendar = w'.calendar := hfound'.calendar
      have hdate : found.calendar + 1 = w'.calendar + 1 := hdates _ List.mem_cons_self
      show found'.calendar + 1 = d.context.createdAt
      rw [horigin.createdAt, hcalendar, ← hdate]
      rfl
    rw [hresult]
    cases result with
    | error e => rfl
    | ok _ =>
      -- From equal contexts, up to the date, the steps come to the same.
      show (resultOf answer input 0 ∅ input.workflow.steps d'.context).mapError _ = _
      rw [hcontext, resultOf_dated hdated]
      rfl

end RunInput

end RunParams
