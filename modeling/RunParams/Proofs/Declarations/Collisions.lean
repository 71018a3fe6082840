import RunParams.Lookup.Memory
import RunParams.Proofs.Declarations.Errors
import RunParams.Proofs.Registry.Requests
import RunParams.Proofs.Run.Parts

/-!
# When a run fails because outputs collide

The outputs that a run declares are those that its workflow lists and those of its steps, but an
output of a step is left out if its key is declared already, be it listed or that of an earlier
step (`Workflow.addOutput`). So steps with one key never collide with each other: what is declared
has the keys of all outputs, and repeats only those that the list itself repeats
(`Workflow.collides_iff`).

`RunInput.collides_perform` says which runs fail with a collision. The other errors of a run are
told apart by what the run was doing (`RunInput.atStep_takeSteps`).
-/

namespace RunParams

/-! ## The outputs that are declared -/

namespace Workflow

/-- The keys of all outputs, those that are listed and those of the steps. -/
def outputKeys (w : Workflow) : List String := (w.outputs ++ w.steps.map Step.output).map (·.key)

/-- The listed outputs repeat a key, or an output has the key of a workflow parameter. -/
def Collides (w : Workflow) : Prop :=
  ¬ (w.outputs.map (·.key)).Nodup ∨ ∃ p ∈ w.parameters, p.key ∈ w.outputKeys

/-- An output is added unless its key is there, so no key is repeated and none is lost. -/
theorem keys_addOutput (outputs : List OutputParameter) (output : OutputParameter) (key : String) :
    (((addOutput outputs output).map (·.key)).Nodup ↔ (outputs.map (·.key)).Nodup) ∧
      (key ∈ (addOutput outputs output).map (·.key) ↔
        key ∈ outputs.map (·.key) ∨ key = output.key) := by
  have hany : (outputs.any fun p => p.key = output.key) = true ↔
      output.key ∈ outputs.map (·.key) := by
    simp [List.any_eq_true, List.mem_map]
  unfold addOutput
  by_cases hmem : output.key ∈ outputs.map (·.key)
  · -- The key is listed already, so nothing is added.
    rw [if_pos (hany.mpr hmem)]
    refine ⟨Iff.rfl, Or.inl, ?_⟩
    rintro (h | rfl)
    · exact h
    · exact hmem
  · rw [if_neg (fun h => hmem (hany.mp h)), List.map_append, List.map_singleton]
    refine ⟨?_, ?_⟩
    · rw [List.nodup_append]
      refine ⟨fun h => h.1, fun h => ⟨h, List.nodup_singleton _, ?_⟩⟩
      rintro a ha b hb rfl
      cases List.mem_singleton.mp hb
      -- What is added is new, since else nothing would have been added.
      exact hmem ha
    · rw [List.mem_append, List.mem_singleton]

/-- Adding the outputs of some steps, each unless its key is there already, adds their keys and
repeats none. -/
theorem keys_addOutputs (steps outputs : List OutputParameter) (key : String) :
    (((steps.foldl addOutput outputs).map (·.key)).Nodup ↔ (outputs.map (·.key)).Nodup) ∧
      (key ∈ (steps.foldl addOutput outputs).map (·.key) ↔
        key ∈ (outputs ++ steps).map (·.key)) := by
  induction steps generalizing outputs with
  | nil => simp
  | cons output rest ih =>
    obtain ⟨hnodup, hmem⟩ := ih (addOutput outputs output)
    obtain ⟨hnodup', hmem'⟩ := keys_addOutput outputs output key
    refine ⟨hnodup.trans hnodup', hmem.trans ?_⟩
    rw [List.map_append, List.mem_append, hmem', List.map_append, List.mem_append, List.map_cons,
      List.mem_cons, or_assoc]

/-- Each workflow parameter gets a binding. -/
theorem parameters_bindings {inputs : KeyMap Json} {parameters : List WorkflowParameter}
    {bindings : List WorkflowBinding}
    (h : (parameters.mapM fun p => do return (⟨p, ← valueOf inputs p⟩ : WorkflowBinding)) =
      .ok bindings) : bindings.map (·.parameter) = parameters := by
  induction parameters generalizing bindings with
  | nil =>
    cases h
    rfl
  | cons p rest ih =>
    rw [List.mapM_cons] at h
    cases hvalue : valueOf inputs p with
    | error e =>
      rw [hvalue] at h
      cases h
    | ok value =>
      rw [hvalue] at h
      cases hrest : rest.mapM fun p => do return (⟨p, ← valueOf inputs p⟩ : WorkflowBinding) with
      -- One value that cannot be had fails the whole list, wherever it stands.
      | error e =>
        rw [hrest] at h
        cases h
      | ok later =>
        rw [hrest] at h
        cases h
        rw [List.map_cons, ih hrest]

/-- What is declared has the keys of all outputs, and collides just when the workflow does. -/
theorem collides_iff {w : Workflow} {inputs : KeyMap Json} {declarations : Declarations}
    (h : w.declarations inputs = .ok declarations) :
    (declarations.Collides ↔ w.Collides) ∧
      ∀ o ∈ declarations.outputs, o.key ∈ w.outputKeys := by
  unfold Workflow.declarations at h
  cases hbindings : w.parameters.mapM fun p => do
      return (⟨p, ← valueOf inputs p⟩ : WorkflowBinding) with
  | error e =>
    rw [hbindings] at h
    cases h
  | ok bindings =>
    rw [hbindings] at h
    cases h
    have hparameters := parameters_bindings hbindings
    have hkeys := keys_addOutputs (w.steps.map Step.output) w.outputs
    -- The steps add no key twice, so a key can be doubled only by the explicit outputs.
    refine ⟨or_congr (not_congr (hkeys "").1) ?_, fun o ho => ?_⟩
    · constructor
      · rintro ⟨b, hb, o, ho, hsame⟩
        refine ⟨b.parameter, hparameters ▸ List.mem_map_of_mem hb, ?_⟩
        exact (hkeys _).2.mp (hsame ▸ List.mem_map_of_mem ho)
      · rintro ⟨p, hp, hkey⟩
        rw [← hparameters] at hp
        obtain ⟨b, hb, rfl⟩ := List.mem_map.mp hp
        obtain ⟨o, ho, hsame⟩ := List.mem_map.mp ((hkeys _).2.mpr hkey)
        exact ⟨b, hb, o, ho, hsame⟩
    · exact (hkeys _).2.mp (List.mem_map_of_mem ho)

end Workflow

/-! ## Opening the context -/

/-- The calls of the executor on behalf of a run. -/
def World.callsOf (w : World) (run : String) : List Call := w.calls.filter fun c => c.run = run

/-- Others leave the settings and the stores in place, and they have nothing to do with a run: its
id stays live or not, and none of its steps is executed. -/
structure World.Elsewhere (run : String) (w w' : World) : Prop where
  live : w'.live.get? run = w.live.get? run
  settings : w'.settings = w.settings
  backend : w'.around.backend = w.around.backend
  calls : w'.callsOf run = w.callsOf run

variable {run : String} {w w' w'' t : World}

/-- Nothing happens in no time. -/
theorem World.Elsewhere.refl (run : String) (w : World) : w.Elsewhere run w := ⟨rfl, rfl, rfl, rfl⟩

/-- What happens elsewhere in two stretches happens elsewhere. -/
theorem World.Elsewhere.trans (h : w.Elsewhere run w') (h' : w'.Elsewhere run w'') :
    w.Elsewhere run w'' :=
  ⟨h'.live.trans h.live, h'.settings.trans h.settings, h'.backend.trans h.backend,
    h'.calls.trans h.calls⟩

/-- Declarations are bound beside the world as they are in a context that nobody else has. -/
theorem World.of_bind {context : Context} {declarations : Declarations}
    {r : Except BindingError Context} (hfree : w.live.get? run = none)
    (h : (World.bind context declarations w).CanEnd (World.Elsewhere run) t r) :
    t.live.get? run = none ∧ t.callsOf run = w.callsOf run ∧
      ∃ d result, (Desk.bindAll declarations ⟨context, w.around⟩).CanEnd Desk.SameStores d result ∧
        r = result.map fun _ => d.context := by
  -- While the context is bound no one else creates or runs under this id.
  let frame (s : World) : Prop := s.live.get? run = none ∧ s.callsOf run = w.callsOf run
  have hframe : ∀ (d : Desk) (s s' : World), frame s →
      World.Elsewhere run { s with around := d.around } s' → frame s' :=
    fun d s s' hs hkept => ⟨hkept.live.trans hs.1, hkept.calls.trans hs.2⟩
  have hjoin : ∀ (d : Desk) (s s' : World), frame s →
      World.Elsewhere run { s with around := d.around } s' →
        Desk.SameStores d ⟨d.context, s'.around⟩ :=
    fun d s s' _ hkept => ⟨rfl, hkept.backend⟩
  rcases Paused.CanEnd.of_bind h with ⟨s, bound, hbeside, hend⟩ | ⟨e, rfl, hbeside⟩
  · obtain ⟨d, s', result, hbound, hs', rfl, hresult⟩ :=
      Paused.CanEnd.of_beside Desk.SameStores frame hjoin hframe ⟨hfree, rfl⟩ hbeside
    obtain ⟨rfl, rfl⟩ := hend.of_ended
    cases result with
    | error e => cases hresult
    | ok a =>
      cases hresult
      exact ⟨hs'.1, hs'.2, d, .ok a, hbound, rfl⟩
  · obtain ⟨d, s', result, hbound, hs', rfl, hresult⟩ :=
      Paused.CanEnd.of_beside Desk.SameStores frame hjoin hframe ⟨hfree, rfl⟩ hbeside
    cases result with
    | error e' =>
      cases hresult
      exact ⟨hs'.1, hs'.2, d, .error e, hbound, rfl⟩
    | ok a => cases hresult

/-- A context that is created for a run without one fails as the binding of its declarations does,
and otherwise it is there. -/
theorem Registry.of_create {organization : Organization} {declarations : Declarations}
    {r : Except BindingError Nat} (hfree : w.live.get? run = none)
    (h : (create run organization declarations w).CanEnd (World.Elsewhere run) t r) :
    t.callsOf run = w.callsOf run ∧
      ∃ createdAt around d result, around.backend = w.around.backend ∧
        (Desk.bindAll declarations ⟨.fresh w.settings run organization createdAt, around⟩).CanEnd
          Desk.SameStores d result ∧
        ((∃ e, result = .error e ∧ r = .error e) ∨ result = .ok () ∧ ∃ number, r = .ok number) := by
  cases h with
  -- Between the look at the registry and the binding stands one wait, in which the others may use
  -- the stores but not this id.
  | @waiting _ s _ _ _ _ hfound h =>
    have hs : s.live.get? run = none := hfound.live.trans hfree
    change Paused.CanEnd _ ((if contains s run then _ else _ : Program World BindingError Nat) s) t
      r at h
    rw [contains_eq_false_iff.mpr hs] at h
    let dated : World := { s with calendar := s.calendar + 1 }
    change ((World.bind (.fresh s.settings run organization (s.calendar + 1)) declarations
      dated).bind fun c => Program.turn >>= fun _ => insert run c).CanEnd _ t r at h
    rw [hfound.settings] at h
    have hdated : dated.live.get? run = none := hs
    rcases h.of_bind with ⟨u, c, hbind, h⟩ | ⟨e, rfl, hbind⟩
    · obtain ⟨hu, hcalls, d, result, hbound, hresult⟩ := World.of_bind hdated hbind
      cases result with
      | error e => cases hresult
      | ok a =>
        -- The second look, at the insertion, finds the id still free.
        cases h with
        | @waiting _ v _ _ _ _ hfound' h =>
          change Paused.CanEnd _ (insert run c v) t r at h
          unfold insert at h
          rw [contains_eq_false_iff.mpr (hfound'.live.trans hu)] at h
          obtain ⟨rfl, rfl⟩ := h.of_ended
          refine ⟨?_, s.calendar + 1, s.around, d, .ok a, hfound.backend, hbound,
            Or.inr ⟨rfl, v.contexts.length, rfl⟩⟩
          calc v.callsOf run = u.callsOf run := hfound'.calls
            _ = s.callsOf run := hcalls
            _ = w.callsOf run := hfound.calls
    · -- The binding has failed, so no context is inserted and no call was made.
      obtain ⟨-, hcalls, d, result, hbound, hresult⟩ := World.of_bind hdated hbind
      cases result with
      | error e' =>
        cases hresult
        exact ⟨hcalls.trans hfound.calls, s.calendar + 1, s.around, d, .error e, hfound.backend,
          hbound, Or.inl ⟨e, rfl, rfl⟩⟩
      | ok a => cases hresult

/-! ## What a run was doing when it failed -/

/-- The report of a failure begins with what was being done for a step. -/
def Failure.IsAtStep (f : Failure) : Prop :=
  ∃ label later, f.doing = ("Failed to register parameters for step " ++ label) :: later ∨
    f.doing = ("Step " ++ label ++ " failed") :: later ∨
    f.doing = ("Failed to record output of step " ++ label) :: later

namespace RunInput

variable {executor : Executor} {input : RunInput} {flag number : Nat} {rely : World → World → Prop}

/-- What the work of a run on its context fails with. -/
theorem of_onContext {doing : String} {action : Action Context Unit} {m : Mishap}
    (h : (onContext number doing action w).CanEnd rely t (.error m)) :
    ∃ e, m = .failed ((Failure.ofBinding e).whileDoing doing) := by
  rcases Paused.CanEnd.of_bind h with ⟨s, result, -, hend⟩ | ⟨e, -, hact⟩
  · cases result with
    | ok u => cases hend.of_ended.2
    | error e => exact ⟨e, Except.error.inj hend.of_ended.2⟩
  · obtain ⟨result, hresult, -⟩ := hact.of_attempt
    cases hresult

/-- What the execution of a step fails with. -/
theorem of_execute {step : Step} {m : Mishap}
    (h : (execute executor input flag number step w).CanEnd rely t (.error m)) :
    ∃ mishap : Mishap, m = mishap.whileDoing ("Step " ++ step.label ++ " failed") := by
  rw [execute_apply] at h
  rcases Paused.CanEnd.of_bind h with ⟨s, result, -, hend⟩ | ⟨e, -, hwork⟩
  · cases result with
    | ok output => cases hend.of_ended.2
    | error mishap => exact ⟨mishap, Except.error.inj hend.of_ended.2⟩
  · obtain ⟨result, hresult, -⟩ := hwork.of_attempt
    cases hresult

/-- What a step fails with. -/
theorem of_takeStep {step : Step} {m : Mishap}
    (h : (takeStep executor input flag number step w).CanEnd rely t (.error m)) :
    ∀ failure, m = .failed failure → failure.IsAtStep := by
  -- The three parts of a step, from the last that may fail to the first.
  rcases Paused.CanEnd.of_bind h with ⟨s, found, -, h⟩ | ⟨e, he, hregister⟩
  · rcases Paused.CanEnd.of_bind h with ⟨s, output, -, h⟩ | ⟨e, he, hexecute⟩
    · rcases Paused.CanEnd.of_bind h with ⟨s, u, -, hend⟩ | ⟨e, he, hrecord⟩
      · cases hend.of_ended.2
      · cases he
        obtain ⟨e, rfl⟩ := of_onContext hrecord
        rintro failure ⟨⟩
        exact ⟨step.label, [], Or.inr (Or.inr rfl)⟩
    · cases he
      obtain ⟨mishap, rfl⟩ := of_execute hexecute
      intro failure hfailure
      cases mishap with
      | failed inner =>
        cases hfailure
        exact ⟨step.label, inner.doing, Or.inr (Or.inl rfl)⟩
      | crashed words => cases hfailure
  · cases he
    obtain ⟨e, rfl⟩ := of_onContext hregister
    rintro failure ⟨⟩
    exact ⟨step.label, [], Or.inl rfl⟩

/-- With the context locked a step fails with nothing else. -/
theorem of_takeStepLocked {step : Step} {m : Mishap}
    (h : (takeStepLocked executor input flag number step w).CanEnd rely t (.error m)) :
    ∀ failure, m = .failed failure → failure.IsAtStep := by
  rcases Paused.CanEnd.of_bind h with ⟨s, u, -, h⟩ | ⟨e, he, hlock⟩
  · rcases Paused.CanEnd.of_bind h with ⟨s, result, hattempt, h⟩ | ⟨e, he, hattempt⟩
    · obtain ⟨result, hresult, hstep⟩ := hattempt.of_attempt
      cases hresult
      obtain ⟨-, rfl⟩ := h.of_ended
      exact of_takeStep hstep
    · obtain ⟨result, hresult, -⟩ := hattempt.of_attempt
      cases hresult
  · -- The lock itself does not fail: it is a wait and then a change of the flag's holder.
    rcases Paused.CanEnd.of_bind hlock with ⟨s, u, -, h⟩ | ⟨e, he, hwait⟩
    · cases h.of_ended.2
    · cases hwait.of_waitFor.2

/-- A run that fails on its way through the steps says so, unless it breaks down. -/
theorem atStep_takeSteps {steps : List Step} {taken : Nat} {outputs : KeyMap Json} {m : Mishap}
    (h : (takeSteps executor input flag number taken outputs steps w).CanEnd rely t (.error m)) :
    ∀ failure, m = .failed failure → failure.IsAtStep := by
  induction steps generalizing w taken outputs with
  | nil => cases h.of_ended.2
  | cons step rest ih =>
    change Paused.CanEnd _ ((if w.flagged flag then _ else _ : Program World Mishap Summary) w) t _
      at h
    cases hflagged : w.flagged flag with
    | true =>
      rw [hflagged] at h
      -- A run told to stop comes to a summary, not to an error.
      cases h.of_ended.2
    | false =>
      rw [hflagged] at h
      rcases Paused.CanEnd.of_bind h with ⟨s, output, -, hrest⟩ | ⟨e, he, hstep⟩
      · exact ih hrest
      · cases he
        exact of_takeStepLocked hstep

/-- The failure of a run whose outputs collide at a key. -/
def collision (input : RunInput) (key : String) : Failure :=
  ⟨["Failed to initialize run " ++ input.run], .binding (.outputKeyCollision key)⟩

/-- Texts that begin differently are different. -/
theorem append_ne_of_take_ne {a b x y : String} (n : Nat) (ha : n ≤ a.toList.length)
    (hb : n ≤ b.toList.length) (h : a.toList.take n ≠ b.toList.take n) : a ++ x ≠ b ++ y := by
  intro hsame
  have htake := congrArg (fun s : String => s.toList.take n) hsame
  simp only [String.toList_append, List.take_append_of_le_length ha,
    List.take_append_of_le_length hb] at htake
  exact h htake

/-- What fails at a step is no collision. -/
theorem ne_collision {failure : Failure} (h : failure.IsAtStep) (key : String) :
    failure ≠ input.collision key := by
  rintro rfl
  obtain ⟨label, later, h | h | h⟩ := h
  · exact append_ne_of_take_ne 11 (by decide) (by decide) (by decide) (List.cons.inj h).1
  · rw [String.append_assoc] at h
    exact append_ne_of_take_ne 5 (by decide) (by decide) (by decide) (List.cons.inj h).1
  · exact append_ne_of_take_ne 11 (by decide) (by decide) (by decide) (List.cons.inj h).1

/-- A run whose context was opened does not fail with a collision. -/
theorem ne_collision_of_opened {r : Except Failure Summary}
    (h : (input.finish executor flag number w).CanEnd rely t r) (key : String) :
    r ≠ .error (input.collision key) := by
  rintro rfl
  rcases Paused.CanEnd.of_bind h with ⟨s, result, hsteps, h⟩ | ⟨e, -, hsteps⟩
  · -- An error of the steps names the step, and the error of a collision names none.
    obtain ⟨result, hresult, hsteps⟩ := hsteps.of_attempt
    cases hresult
    rcases Paused.CanEnd.of_bind h with ⟨s, found, -, h⟩ | ⟨e, he, hdiscard⟩
    · cases result with
      | ok summary => cases h.of_ended.2
      | error mishap =>
        have hfailure : mishap.toFailure input.run = input.collision key :=
          (Except.error.inj h.of_ended.2).symm
        cases mishap with
        | failed failure => exact ne_collision (atStep_takeSteps hsteps failure rfl) key hfailure
        | crashed words => cases hfailure
    · -- To discard a context is to wait for one's turn, and does not fail.
      rcases Paused.CanEnd.of_bind hdiscard with ⟨s, u, -, hend⟩ | ⟨e, -, hturn⟩
      · cases hend.of_ended.2
      · cases hturn.of_waitFor.2
  · obtain ⟨result, hresult, -⟩ := hsteps.of_attempt
    cases hresult

/-- A run whose context could not be opened fails as the binding of its declarations does, and has
no step executed. -/
theorem of_openContext {declarations : Declarations} {r : Except Failure Nat}
    (hfree : w.live.get? input.run = none)
    (h : (openContext input declarations w).CanEnd (World.Elsewhere input.run) t r) :
    t.callsOf input.run = w.callsOf input.run ∧
      ∃ createdAt around d result, around.backend = w.around.backend ∧
        (Desk.bindAll declarations
          ⟨.fresh w.settings input.run input.organization createdAt, around⟩).CanEnd
            Desk.SameStores d result ∧
        ((∃ e, result = .error e ∧ r = .error ((Failure.ofBinding e).whileDoing
            ("Failed to initialize run " ++ input.run))) ∨
          result = .ok () ∧ ∃ number, r = .ok number) := by
  rw [openContext_eq] at h
  rcases Paused.CanEnd.of_bind h with ⟨s, created, hcreate, h⟩ | ⟨e, -, hcreate⟩
  · obtain ⟨created, hcreated, hcreate⟩ := hcreate.of_attempt
    cases hcreated
    obtain ⟨hcalls, createdAt, around, d, result, hbackend, hbound, hends⟩ :=
      Registry.of_create hfree hcreate
    have hopened : t.callsOf input.run = s.callsOf input.run ∧
        ((∃ e, created = .error e ∧ r = .error ((Failure.ofBinding e).whileDoing
            ("Failed to initialize run " ++ input.run))) ∨
          ∃ number, created = .ok number ∧ r = .ok number) := by
      -- What the run makes of the outcome of the creation is read off the two kinds of outcome.
      cases created with
      | ok number =>
        obtain ⟨rfl, rfl⟩ := h.of_ended
        exact ⟨rfl, Or.inr ⟨number, rfl, rfl⟩⟩
      | error e =>
        obtain ⟨events, hended⟩ := input.opened_error e s
        rw [hended] at h
        obtain ⟨rfl, rfl⟩ := h.of_ended
        exact ⟨rfl, Or.inl ⟨e, rfl, rfl⟩⟩
    refine ⟨hopened.1.trans hcalls, createdAt, around, d, result, hbackend, hbound, ?_⟩
    rcases hends with ⟨e, rfl, rfl⟩ | ⟨rfl, number, rfl⟩
    · rcases hopened.2 with ⟨e', he, rfl⟩ | ⟨number, hnumber, -⟩
      · cases he
        exact Or.inl ⟨e, rfl, rfl⟩
      · cases hnumber
    · rcases hopened.2 with ⟨e', he, -⟩ | ⟨number', hnumber, rfl⟩
      · cases he
      · exact Or.inr ⟨rfl, number', rfl⟩
  · obtain ⟨result, hresult, -⟩ := hcreate.of_attempt
    cases hresult

/-- Whether a run fails because outputs collide. When its declarations can be built and its workflow
parameters bound, its id is not live and nobody else does anything for it, a run fails with a
collision at the key of an output, and has no step executed, if its workflow collides: if the
outputs that it lists repeat a key, or an output, listed or of a step, has the key of a workflow
parameter. Otherwise it never fails that way, whether or not two steps have outputs with one key. -/
theorem collides_perform {r : Except Failure Summary} {declarations : Declarations}
    (hdeclared : input.workflow.declarations input.inputs = .ok declarations)
    (hfree : Registry.contains w input.run = false) (hspares : w.around.backend.Spares)
    (hbinds : ∀ createdAt around, around.backend = w.around.backend → ∀ d e,
      ¬ (Desk.each Desk.bindWorkflow declarations.bindings
        ⟨.fresh w.settings input.run input.organization createdAt, around⟩).CanEnd
          Desk.SameStores d (.error e))
    (h : (input.perform executor flag w).CanEnd (World.Elsewhere input.run) t r) :
    (input.workflow.Collides → t.callsOf input.run = w.callsOf input.run ∧
      ∃ key ∈ input.workflow.outputKeys, r = .error (input.collision key)) ∧
    (¬ input.workflow.Collides → ∀ key, r ≠ .error (input.collision key)) := by
  obtain ⟨hcollides, hkeys⟩ := Workflow.collides_iff hdeclared
  unfold perform at h
  rw [hdeclared] at h
  let started := w.logged
    [.runStarting input.run input.organization.id input.workflow.steps.length]
  change Paused.CanEnd _ (Paused.bind _ (openContext input declarations started)) t r at h
  have hstarted : started.live.get? input.run = none := Registry.contains_eq_false_iff.mp hfree
  have hopened : ∀ s opened, (openContext input declarations started).CanEnd
      (World.Elsewhere input.run) s opened →
      s.callsOf input.run = w.callsOf input.run ∧
        (declarations.Collides ∧ (∃ key ∈ input.workflow.outputKeys,
            opened = .error (input.collision key)) ∨
          ¬ declarations.Collides ∧ ∀ key, opened ≠ .error (input.collision key)) := by
    -- Whatever the others do to the stores, an error is no collision, so only the declarations
    -- decide.
    intro s opened hopen
    obtain ⟨hcalls, createdAt, around, d, result, hbackend, hbound, hends⟩ :=
      of_openContext hstarted hopen
    refine ⟨hcalls, ?_⟩
    rcases Desk.collides_bindAll hspares hbackend rfl (hbinds createdAt around hbackend) hbound with
      ⟨hcollides, o, ho, rfl⟩ | ⟨hcollides, hapart⟩
    · rcases hends with ⟨e, he, rfl⟩ | ⟨hok, -⟩
      · cases he
        exact Or.inl ⟨hcollides, o.key, hkeys o ho, rfl⟩
      · cases hok
    · refine Or.inr ⟨hcollides, fun key hcollision => ?_⟩
      rcases hends with ⟨e, he, rfl⟩ | ⟨-, number, rfl⟩
      · have hreason := congrArg Failure.reason (Except.error.inj hcollision)
        exact hapart e he key (Reason.binding.inj hreason)
      · cases hcollision
  rw [← hcollides]
  -- After the context has been opened no error is a collision, so there the declarations cannot
  -- collide.
  rcases h.of_bind with ⟨s, number, hopen, h⟩ | ⟨failure, rfl, hopen⟩
  · obtain ⟨-, ⟨-, key, -, hcollision⟩ | ⟨hapart, -⟩⟩ := hopened s _ hopen
    · cases hcollision
    · exact ⟨fun hcollides => absurd hcollides hapart, fun _ key => ne_collision_of_opened h key⟩
  · obtain ⟨hcalls, ⟨hcollides, key, hkey, hcollision⟩ | ⟨hapart, hne⟩⟩ := hopened t _ hopen
    · exact ⟨fun _ => ⟨hcalls, key, hkey, by rw [Except.error.inj hcollision]⟩,
        fun hnot => absurd hcollides hnot⟩
    · exact ⟨fun hcollides => absurd hcollides hapart,
        fun _ key hcollision => hne key (by rw [Except.error.inj hcollision])⟩

/-- A workflow that lists one output twice fails with a collision. -/
theorem collides_perform_listed :
    let workflow : Workflow := ⟨[], [.ofLabel "a", .ofLabel "a"], [], [], [⟨"a", [], none⟩]⟩
    let input : RunInput := ⟨"r", ⟨"acme", none⟩, workflow, ∅⟩
    let w := World.start .standard (Memory.backend .empty) default
    let p := perform echo input 0 w
    ∃ t key, p.CanEnd (World.Elsewhere "r") t (.error (input.collision key)) ∧
      key = "a_output" ∧ t.callsOf "r" = [] := by
  intro workflow input w p
  have hend : p.CanEnd (World.Elsewhere "r") (p.alone fun _ w => w).2 (p.alone fun _ w => w).1 :=
    Paused.canEnd_alone (fun _ w => w) (fun _ w => .refl "r" w) p
  have hcollides : workflow.Collides := Or.inl (by decide)
  have hdeclared : input.workflow.declarations input.inputs = .ok ⟨[], workflow.outputs, [], []⟩ :=
    rfl
  have hspares : (Memory.backend .empty).Spares := by
    intro asked q e h
    cases h
  have hfails := collides_perform hdeclared rfl hspares (fun _ _ _ _ _ h => nomatch h.of_ended.2)
    hend
  obtain ⟨hcalls, key, hkey, hr⟩ := hfails.1 hcollides
  rw [hr] at hend
  have hkeys : ∀ key ∈ workflow.outputKeys, key = "a_output" := by decide
  exact ⟨_, key, hend, hkeys key hkey, hcalls⟩

/-- Two steps with one label take the same output in turn, and the run completes. -/
theorem steps_share_output :
    let workflow : Workflow := ⟨[], [], [], [], [⟨"a", [], none⟩, ⟨"a", [], none⟩]⟩
    let w := World.start .standard (Memory.backend .empty) default
    let p := perform echo ⟨"r", ⟨"acme", none⟩, workflow, ∅⟩ 0 w
    workflow.steps.map Step.output = [.ofLabel "a", .ofLabel "a"] ∧
      ∃ t summary, p.CanEnd (World.Elsewhere "r") t (.ok summary) ∧
        summary.status = .completed ∧ summary.stepsCompleted = 2 ∧ (t.callsOf "r").length = 2 := by
  intro workflow w p
  have hend : p.CanEnd (World.Elsewhere "r") (p.alone fun _ w => w).2 (p.alone fun _ w => w).1 :=
    Paused.canEnd_alone (fun _ w => w) (fun _ w => .refl "r" w) p
  have hcalls : ((p.alone fun _ w => w).2.callsOf "r").length = 2 := by decide +kernel
  have hcompletes : (p.alone fun _ w => w).1.toOption.map
      (fun s => (s.status, s.stepsCompleted)) = some (.completed, 2) := by decide +kernel
  cases hresult : (p.alone fun _ w => w).1 with
  | error e =>
    rw [hresult] at hcompletes
    cases hcompletes
  | ok summary =>
    rw [hresult] at hend hcompletes
    have hsummary := Option.some.inj hcompletes
    exact ⟨rfl, _, summary, hend, congrArg Prod.fst hsummary, congrArg Prod.snd hsummary, hcalls⟩

end RunInput

end RunParams
