import RunParams.Proofs.Isolation.Works
import RunParams.Proofs.Replay.Binding
import RunParams.Proofs.Run.Courses
import RunParams.Proofs.Run.Parts

/-!
# The steps of a run as a function of its context

An executor that sees nothing but the step and the context, and does not ask its run to stop, is a
function of the two (`Executor.Computes`). Then the steps of a run are a function of the context
with which the run begins them (`RunInput.resultOf`): whatever others do meanwhile, as long as they
leave the context and the flag of the run alone, this is what the steps come to
(`RunInput.of_takeSteps`). It does not matter whether the context is still live.
-/

namespace RunParams

/-- An executor returns an answer that depends on the step and the context alone, whatever happens
while it waits, and leaves alone whether its run is asked to stop. -/
structure Executor.Computes (executor : Executor)
    (answer : Step → Context → Except Mishap Json) : Prop where
  returns : ∀ step context s t r,
    (executor step context s).CanEnd (fun _ _ => True) t r → r = answer step context
  stopping : ∀ step context,
    (executor step context).KeepsTo fun s s' : Stage => s'.stopping = s.stopping

/-- What an executor answers does not depend on the date of a context. -/
def IgnoresDates (answer : Step → Context → Except Mishap Json) : Prop :=
  ∀ step c date, answer step (c.dated date) = answer step c

/-- To repeat values is to answer with them. -/
theorem echo_computes : Executor.Computes echo fun step context =>
    .ok (completedOutput (valuesOf context step.parameters)) := by
  refine ⟨fun step context s t r hend => ?_, fun step context s => ?_⟩
  · exact hend.of_ended.2
  · exact (rfl : s.stopping = s.stopping)

namespace RunInput

/-- What taking a step comes to in a context: the output, or why there is none, and the context
afterwards. -/
def stepOn (answer : Step → Context → Except Mishap Json) (input : RunInput) (step : Step)
    (c : Context) : Except Mishap Json × Context :=
  let failed (doing : String) (e : BindingError) : Mishap :=
    .failed ((Failure.ofBinding e).whileDoing (doing ++ step.label))
  let registered := Context.register step.parameters input.organization.id c
  match registered.result with
  | .error e => (.error (failed "Failed to register parameters for step " e), registered.state)
  | .ok () =>
    match answer step registered.state with
    | .error mishap =>
      (.error (mishap.whileDoing ("Step " ++ step.label ++ " failed")), registered.state)
    | .ok output =>
      let recorded := Context.recordOutput step.output output registered.state
      match recorded.result with
      | .error e => (.error (failed "Failed to record output of step " e), recorded.state)
      | .ok () => (.ok output, recorded.state)

/-- What taking the steps that are left comes to, when the run is not asked to stop. -/
def resultOf (answer : Step → Context → Except Mishap Json) (input : RunInput) (taken : Nat)
    (outputs : KeyMap Json) : List Step → Context → Except Mishap Summary
  | [], _ => .ok ⟨input.run, .completed, taken, outputs⟩
  | step :: rest, c =>
    match stepOn answer input step c with
    | (.error mishap, _) => .error mishap
    | (.ok output, c') =>
      resultOf answer input (taken + 1) (outputs.insert step.output.key output) rest c'

end RunInput

/-- A context with a number is there, and a flag is not raised. -/
structure World.Has (number : Nat) (c : Context) (flag : Nat) (w : World) : Prop where
  context : w.contexts[number]? = some c
  lowered : w.flagged flag = false

/-- Others leave to a run what is its own: its contexts, be they live or not, and its flag unless it
is raised. They do not make a context of it live. -/
structure World.Spared (run : String) (flag : Nat) (w w' : World) : Prop where
  settings : w'.settings = w.settings
  contexts : ∀ (n : Nat) c, w.contexts[n]? = some c → c.run = run → w'.contexts[n]? = some c
  absent : w.live.get? run = none → w'.live.get? run = none
  lowered : w.flagged flag = false → w'.flagged flag = false

namespace World

variable {run : String} {flag number : Nat} {c : Context} {w w' w'' : World}

/-- Nothing happens in no time. -/
theorem Spared.refl (run : String) (flag : Nat) (w : World) : w.Spared run flag w :=
  ⟨rfl, fun _ _ h _ => h, id, id⟩

/-- What is spared twice is spared. -/
theorem Spared.trans (h : w.Spared run flag w') (h' : w'.Spared run flag w'') :
    w.Spared run flag w'' :=
  ⟨h'.settings.trans h.settings, fun n c hc hrun => h'.contexts n c (h.contexts n c hc hrun) hrun,
    fun hnone => h'.absent (h.absent hnone), fun hlow => h'.lowered (h.lowered hlow)⟩

/-- A run still has its context when it has been spared. -/
theorem Has.spared (h : w.Has number c flag) (hrun : c.run = run) (h' : w.Spared run flag w') :
    w'.Has number c flag :=
  ⟨h'.contexts number c h.context hrun, h'.lowered h.lowered⟩

/-- What counts of a world is the contexts and the flags. -/
theorem Has.congr (h : w.Has number c flag) (hcontexts : w'.contexts = w.contexts)
    (hflags : w'.flags = w.flags) : w'.Has number c flag := by
  refine ⟨hcontexts ▸ h.context, ?_⟩
  rw [flagged, hflags]
  exact h.lowered

/-- The context with a number is another one after it has been set. -/
theorem Has.set (h : w.Has number c flag) {c' : Context}
    (hcontexts : w'.contexts = w.contexts.set number c') (hflags : w'.flags = w.flags) :
    w'.Has number c' flag := by
  have hused : number < w.contexts.length := (List.getElem?_eq_some_iff.mp h.context).1
  refine ⟨?_, ?_⟩
  · rw [hcontexts, List.getElem?_set_self hused]
  · rw [flagged, hflags]
    exact h.lowered

end World

namespace Paused

/-- A program that keeps to a relation, as the others do at its waits, has kept to it when it ends.
-/
theorem KeepsTo.of_canEnd {σ ε α : Type} {rel rely : σ → σ → Prop} [Trans rel rel rel]
    {p : Paused σ ε α} {start t : σ} {r : Except ε α} (h : p.KeepsTo rel start)
    (hrely : ∀ s s', rely s s' → rel s s') (hend : p.CanEnd rely t r) : rel start t := by
  induction hend generalizing start with
  | ended s r => exact h
  | @waiting s s' t w resume r found _ ih =>
    have hwait : rel start s := h.1
    have hfound : rel s s' := hrely s s' found
    have hrest : rel s' t := ih (h.2 s' trivial)
    exact Trans.trans (Trans.trans hwait hfound : rel start s') hrest

end Paused

open Program

/-- A success is one whatever is made of errors. -/
theorem ok_of_mapError {ε ε' α : Type} {f : ε → ε'} {x : Except ε α} {a : α}
    (h : x.mapError f = .ok a) : x = .ok a := by
  cases x with
  | ok b => exact congrArg Except.ok (Except.ok.inj h)
  | error e => cases h

/-- An error is made from one. -/
theorem error_of_mapError {ε ε' α : Type} {f : ε → ε'} {x : Except ε α} {e' : ε'}
    (h : x.mapError f = .error e') : ∃ e, x = .error e ∧ e' = f e := by
  cases x with
  | ok b => cases h
  | error e => exact ⟨e, rfl, (Except.error.inj h).symm⟩

namespace RunInput

variable {executor : Executor} {answer : Step → Context → Except Mishap Json} {input : RunInput}
  {flag number : Nat} {c : Context} {w t : World} {rely : World → World → Prop} {step : Step}

/-- Work of a run on its context is done at once, and the context is then as the work leaves it. -/
theorem of_onContext_has {doing : String} {action : Action Context Unit} {r : Except Mishap Unit}
    (hhas : w.Has number c flag) (h : (onContext number doing action w).CanEnd rely t r) :
    r = ((action c).result.mapError fun e =>
        Mishap.failed ((Failure.ofBinding e).whileDoing doing)) ∧
      t.Has number (action c).state flag := by
  have hc : w.contexts.getD number default = c := World.getD_contexts hhas.context
  subst hc
  let effect := action (w.contexts.getD number default)
  let left := { w with contexts := w.contexts.set number effect.state }.logged effect.events
  have hleft : left.Has number effect.state flag := hhas.set rfl rfl
  have hdone : ∀ next : Except BindingError Unit → Program World Mishap Unit,
      ((World.act number action).attempt >>= next) w = next effect.result left := fun _ => rfl
  unfold onContext at h
  rw [hdone] at h
  -- Whether the action fails or not, its state is what the context has become.
  cases hresult : effect.result with
  | ok _ =>
    rw [hresult] at h
    obtain ⟨rfl, rfl⟩ := h.of_ended
    exact ⟨rfl, hleft⟩
  | error e =>
    rw [hresult] at h
    obtain ⟨rfl, rfl⟩ := h.of_ended
    exact ⟨rfl, hleft⟩

/-- An executor that computes an answer returns it, and leaves the contexts and the flag of its run
as they are. -/
theorem of_executor (hcomputes : executor.Computes answer)
    (hrely : ∀ w w', rely w w' → w.Spared input.run flag w') (hrun : c.run = input.run)
    (hhas : w.Has number c flag) {context : Context} {r : Except Mishap Json}
    (h : ((executor step context).within (Stage.ofWorld flag) (Stage.toWorld flag) w).CanEnd
      rely t r) :
    r = answer step context ∧ t.Has number c flag := by
  -- While the executor waits, others do not raise the flag, and neither does the executor.
  let lowers (s s' : Stage) : Prop := s.stopping = false → s'.stopping = false
  have hlowered : ∀ (s : Stage) (w : World), s.stopping = false →
      (s.toWorld flag w).flagged flag = false := by
    intro s w hs
    rw [World.flagged_set _ w.flags flag flag s.stopping rfl]
    -- Only the run's own flag is set, if there is such a flag.
    split
    · exact hs
    · next hout =>
      have hlength : w.flags.length ≤ flag := Nat.le_of_not_lt fun hlt => hout ⟨rfl, hlt⟩
      rw [List.getD_eq_getElem?_getD, List.getElem?_eq_none hlength]
      rfl
  obtain ⟨s, w', hend, hw', rfl⟩ := Paused.CanEnd.of_within lowers
    (fun w' => w'.contexts[number]? = some c)
    (fun s w w' hkept hs => (hrely _ _ hkept).lowered (hlowered s w hs))
    (fun s w w' hw hkept => (hrely _ _ hkept).contexts number c hw hrun) hhas.context h
  have hstopping : lowers (Stage.ofWorld flag w) s := by
    have : Trans lowers lowers lowers := ⟨fun h h' hs => h' (h hs)⟩
    have hkeeps : (executor step context (Stage.ofWorld flag w)).KeepsTo lowers
        (Stage.ofWorld flag w) :=
      (hcomputes.stopping step context).mono (fun _ _ hsame hs => hsame.trans hs) _
    exact hkeeps.of_canEnd (fun _ _ h => h) hend
  exact ⟨hcomputes.returns step context _ _ _ (hend.mono fun _ _ _ => trivial),
    ⟨hw', hlowered s w' (hstopping hhas.lowered)⟩⟩

/-- A step of a run is executed, and the context is left as it is. -/
theorem of_execute_computes (hcomputes : executor.Computes answer)
    (hrely : ∀ w w', rely w w' → w.Spared input.run flag w') (hrun : c.run = input.run)
    (hhas : w.Has number c flag) {r : Except Mishap Json}
    (h : (execute executor input flag number step w).CanEnd rely t r) :
    r = ((answer step c).mapError fun mishap =>
        mishap.whileDoing ("Step " ++ step.label ++ " failed")) ∧ t.Has number c flag := by
  have hc : w.contexts.getD number default = c := World.getD_contexts hhas.context
  let called : World := { w with calls := w.calls ++ [⟨input.run, step.label, c⟩] }
  have hcalled : called.Has number c flag := hhas.congr rfl rfl
  rw [execute_apply, hc] at h
  rcases Paused.CanEnd.of_bind h with ⟨u, result, hwork, hend⟩ | ⟨e, -, hwork⟩
  · obtain ⟨result, hresult, hinner⟩ := hwork.of_attempt
    cases hresult
    obtain ⟨rfl, hu⟩ := of_executor hcomputes hrely hrun hcalled hinner
    -- The executor's answer is fixed by the step and the context it was handed.
    cases hanswer : answer step c with
    | ok output =>
      rw [hanswer] at hend
      obtain ⟨rfl, rfl⟩ := hend.of_ended
      exact ⟨rfl, hu⟩
    | error mishap =>
      rw [hanswer] at hend
      obtain ⟨rfl, rfl⟩ := hend.of_ended
      exact ⟨rfl, hu⟩
  · obtain ⟨result, hresult, -⟩ := hwork.of_attempt
    cases hresult

/-- A step leaves the context to its run. -/
theorem run_stepOn (answer : Step → Context → Except Mishap Json) (input : RunInput) (step : Step)
    (c : Context) : (stepOn answer input step c).2.run = c.run := by
  have hregister : (Context.register step.parameters input.organization.id c).state.run = c.run :=
    Context.run_change c (.register step.parameters input.organization.id)
  unfold stepOn
  dsimp only
  split
  · exact hregister
  · split
    · exact hregister
    · split
      · exact hregister
      · exact hregister

/-- Taking a step comes to what it comes to in the context, and leaves that context. -/
theorem of_takeStep_computes (hcomputes : executor.Computes answer)
    (hrely : ∀ w w', rely w w' → w.Spared input.run flag w') (hrun : c.run = input.run)
    (hhas : w.Has number c flag) {r : Except Mishap Json}
    (h : (takeStep executor input flag number step w).CanEnd rely t r) :
    r = (stepOn answer input step c).1 ∧ t.Has number (stepOn answer input step c).2 flag := by
  have hrun₁ : (Context.register step.parameters input.organization.id c).state.run = input.run :=
    (Context.run_change c (.register step.parameters input.organization.id)).trans hrun
  unfold stepOn
  dsimp only
  -- Registering, executing and recording, each on the context the one before has left.
  rcases Paused.CanEnd.of_bind h with ⟨u, _, hregister, h⟩ | ⟨mishap, rfl, hregister⟩
  · obtain ⟨hregistered, hu⟩ := of_onContext_has hhas hregister
    rw [ok_of_mapError hregistered.symm]
    dsimp only
    rcases Paused.CanEnd.of_bind h with ⟨v, output, hexecute, h⟩ | ⟨mishap, rfl, hexecute⟩
    · obtain ⟨hexecuted, hv⟩ := of_execute_computes hcomputes hrely hrun₁ hu hexecute
      rw [ok_of_mapError hexecuted.symm]
      dsimp only
      rcases Paused.CanEnd.of_bind h with ⟨x, _, hrecord, h⟩ | ⟨mishap, rfl, hrecord⟩
      · obtain ⟨hrecorded, hx⟩ := of_onContext_has hv hrecord
        obtain ⟨rfl, rfl⟩ := h.of_ended
        rw [ok_of_mapError hrecorded.symm]
        exact ⟨rfl, hx⟩
      · obtain ⟨hrecorded, ht⟩ := of_onContext_has hv hrecord
        obtain ⟨e, he, rfl⟩ := error_of_mapError hrecorded.symm
        rw [he]
        exact ⟨rfl, ht⟩
    · obtain ⟨hexecuted, ht⟩ := of_execute_computes hcomputes hrely hrun₁ hu hexecute
      obtain ⟨e, he, rfl⟩ := error_of_mapError hexecuted.symm
      rw [he]
      exact ⟨rfl, ht⟩
  · obtain ⟨hregistered, ht⟩ := of_onContext_has hhas hregister
    obtain ⟨e, he, rfl⟩ := error_of_mapError hregistered.symm
    rw [he]
    exact ⟨rfl, ht⟩

/-- With the context locked a step comes to the same. -/
theorem of_takeStepLocked_computes (hcomputes : executor.Computes answer)
    (hrely : ∀ w w', rely w w' → w.Spared input.run flag w') (hrun : c.run = input.run)
    (hhas : w.Has number c flag) {r : Except Mishap Json}
    (h : (takeStepLocked executor input flag number step w).CanEnd rely t r) :
    r = (stepOn answer input step c).1 ∧ t.Has number (stepOn answer input step c).2 flag := by
  rcases Paused.CanEnd.of_bind h with ⟨u, _, hlock, h⟩ | ⟨e, -, hlock⟩
  · rcases Paused.CanEnd.of_bind hlock with ⟨v, _, hwait, hlocked⟩ | ⟨e, he, -⟩
    · -- Getting the lock may take a wait, but the context is the same after it.
      obtain ⟨hfound, -⟩ := hwait.of_waitFor
      obtain ⟨rfl, -⟩ := hlocked.of_ended
      have hu : World.Has number c flag { v with locks := ⟨number, flag⟩ :: v.locks } :=
        (hhas.spared hrun (hrely _ _ hfound)).congr rfl rfl
      rcases Paused.CanEnd.of_bind h with ⟨x, result, hstep, h⟩ | ⟨e, -, hstep⟩
      · obtain ⟨result, hresult, hinner⟩ := hstep.of_attempt
        cases hresult
        obtain ⟨rfl, hx⟩ := of_takeStep_computes hcomputes hrely hrun hu hinner
        obtain ⟨rfl, rfl⟩ := h.of_ended
        exact ⟨rfl, hx.congr rfl rfl⟩
      · obtain ⟨result, hresult, -⟩ := hstep.of_attempt
        cases hresult
    · cases he
  · rcases Paused.CanEnd.of_bind hlock with ⟨v, _, -, hlocked⟩ | ⟨e, -, hwait⟩
    · cases hlocked.of_ended.2
    · cases hwait.of_waitFor.2

/-- The steps that are left come to what the context says, whatever others do, as long as they leave
the context and the flag of the run alone. -/
theorem of_takeSteps (hcomputes : executor.Computes answer)
    (hrely : ∀ w w', rely w w' → w.Spared input.run flag w') {steps : List Step} {taken : Nat}
    {outputs : KeyMap Json} {r : Except Mishap Summary} (hrun : c.run = input.run)
    (hhas : w.Has number c flag)
    (h : (takeSteps executor input flag number taken outputs steps w).CanEnd rely t r) :
    r = resultOf answer input taken outputs steps c := by
  induction steps generalizing w c taken outputs with
  | nil =>
    obtain ⟨-, rfl⟩ := h.of_ended
    rfl
  | cons step rest ih =>
    change Paused.CanEnd _ ((if w.flagged flag then _ else _ : Program World Mishap Summary) w) t r
      at h
    -- The flag is low, so the next step is taken.
    rw [hhas.lowered] at h
    have hrun' : (stepOn answer input step c).2.run = input.run :=
      (run_stepOn answer input step c).trans hrun
    unfold resultOf
    rcases Paused.CanEnd.of_bind h with ⟨u, output, hstep, h⟩ | ⟨mishap, rfl, hstep⟩
    · obtain ⟨houtput, hu⟩ := of_takeStepLocked_computes hcomputes hrely hrun hhas hstep
      rcases hresult : stepOn answer input step c with ⟨result, c'⟩
      rw [hresult] at houtput hu hrun'
      cases houtput
      exact ih hrun' hu h
    · obtain ⟨hmishap, -⟩ := of_takeStepLocked_computes hcomputes hrely hrun hhas hstep
      rcases hresult : stepOn answer input step c with ⟨result, c'⟩
      rw [hresult] at hmishap
      cases hmishap
      rfl

/-! ## Contexts with another date -/

/-- A step comes to the same in a context with another date, and leaves the context so. -/
theorem stepOn_dated (hignores : IgnoresDates answer) (input : RunInput) (step : Step)
    (c : Context) (date : Nat) : stepOn answer input step (c.dated date) =
      ((stepOn answer input step c).1, (stepOn answer input step c).2.dated date) := by
  -- What is registered depends on the store alone, and so does what a recorded output does.
  obtain ⟨hresult, hstate⟩ := Context.register_eq c step.parameters input.organization.id
  obtain ⟨hresult', hstate'⟩ :=
    Context.register_eq (c.dated date) step.parameters input.organization.id
  have hsame : (Context.register step.parameters input.organization.id (c.dated date)).result =
      (Context.register step.parameters input.organization.id c).result :=
    hresult'.trans hresult.symm
  have hdated : (Context.register step.parameters input.organization.id (c.dated date)).state =
      (Context.register step.parameters input.organization.id c).state.dated date := by
    rw [hstate', hstate]
    rfl
  unfold stepOn
  dsimp only
  rw [hsame, hdated]
  cases (Context.register step.parameters input.organization.id c).result with
  | error e => rfl
  | ok _ =>
    dsimp only
    -- The executor does not look at the date, so it gives the same answer.
    rw [hignores]
    generalize (Context.register step.parameters input.organization.id c).state = registered
    cases answer step registered with
    | error mishap => rfl
    | ok output =>
      have hrecorded : (Context.recordOutput step.output output (registered.dated date)).result =
          (Context.recordOutput step.output output registered).result := rfl
      dsimp only
      rw [hrecorded]
      cases (Context.recordOutput step.output output registered).result with
      | error e => rfl
      | ok _ => rfl

/-- The steps come to the same in a context with another date, unless the executor looks at dates.
-/
theorem resultOf_dated {date : Nat} (h : IgnoresDates answer ∨ date = c.createdAt)
    (input : RunInput) (taken : Nat) (outputs : KeyMap Json) (steps : List Step) :
    resultOf answer input taken outputs steps (c.dated date) =
      resultOf answer input taken outputs steps c := by
  rcases h with hignores | rfl
  · induction steps generalizing c taken outputs with
    | nil => rfl
    | cons step rest ih =>
      unfold resultOf
      rw [stepOn_dated hignores]
      -- A step that fails ends both runs alike.
      rcases stepOn answer input step c with ⟨_ | output, c'⟩
      · rfl
      · exact ih _ _
  · rfl

end RunInput

end RunParams
