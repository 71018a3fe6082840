import RunParams.Proofs.Run.Accounts
import RunParams.Proofs.Run.Courses

/-!
# The calls behind the notes of a run

The notes of a run say in which order it has done things, but nothing about the world: neither that
a call that is noted was made, nor with which context. Both are shown here stretch by stretch. What
a stretch notes of calls is what it adds to the calls of the world, one for one and in the same
order, and each of these calls is `RunInput.Backed`: the parameters of its step were registered in
the same stretch, and the executor sees the context as this registration has left it.

What has to be remembered between two stretches is the number of the context (`RunInput.Tally`). A
run notes it when it opens the context, so in the end it is read off the notes
(`RunInput.perform_calls`).
-/

namespace RunParams

variable {executor : Executor} {input : RunInput} {flag number : Nat} {w w' : World}
  {own own' : Option Nat} {d d' d'' start : World × List Note} {ε α : Type}

/-- No step has been executed. -/
def World.SameCalls (w w' : World) : Prop := w'.calls = w.calls

instance : Std.Refl World.SameCalls := ⟨fun _ => rfl⟩

instance : Trans World.SameCalls World.SameCalls World.SameCalls := ⟨fun h h' => h'.trans h⟩

namespace RunInput

open Program Paused World

/-! ## What a stretch notes and does -/

/-- A call that a stretch has made is what it has noted: it is made for this run and step, in the
same stretch the parameters of the step have been registered, and the executor sees the context that
the stretch has found as the registration leaves it. -/
structure Backed (input : RunInput) (number : Nat) (found : World) (notes : List Note)
    (noted : Step × Nat) (call : Call) : Prop where
  run : call.run = input.run
  label : call.label = noted.1.label
  registered : .step noted.2 (.registered (.ok ())) ∈ notes
  context : ∀ c, found.contexts[number]? = some c →
    let registration := Context.register noted.1.parameters input.organization.id c
    registration.result = .ok () ∧ call.context = registration.state

/-- The calls that are noted from a moment of a run to a later one are those that the world has
gained meanwhile. The context of the run is one that is `opened`. -/
def Tallied (input : RunInput) (opened : Nat → Prop) (d d' : World × List Note) : Prop :=
  ∃ notes calls, d'.2 = d.2 ++ notes ∧ d'.1.calls = d.1.calls ++ calls ∧
    List.Forall₂ (fun noted call => ∃ number, opened number ∧
      Backed input number d.1 notes noted call) (notes.filterMap call?) calls

/-- What a run that remembers its context does in a stretch. A context that it remembers afterwards
it has remembered before or has noted. -/
structure Tally (input : RunInput) (own : Option Nat) (d d' : World × List Note)
    (own' : Option Nat) : Prop where
  tallied : Tallied input (fun number => own = some number) d d'
  opened : ∀ number, own' = some number → own = some number ∨ .opened number ∈ d'.2

/-- No call is noted, and none is made. -/
structure Uncalled (d d' : World × List Note) : Prop where
  notes : ∃ notes, d'.2 = d.2 ++ notes ∧ notes.filterMap call? = []
  calls : d.1.SameCalls d'.1

/-- Nothing is noted in no time. -/
theorem Uncalled.refl (d : World × List Note) : Uncalled d d :=
  ⟨⟨[], (List.append_nil _).symm, rfl⟩, rfl⟩

/-- What is noted twice without a call is noted without a call. -/
theorem Uncalled.trans (h : Uncalled d d') (h' : Uncalled d' d'') : Uncalled d d'' := by
  obtain ⟨notes, hnotes, hnone⟩ := h.notes
  obtain ⟨notes', hnotes', hnone'⟩ := h'.notes
  refine ⟨⟨notes ++ notes', ?_, ?_⟩, h'.calls.trans h.calls⟩
  · rw [hnotes', hnotes, List.append_assoc]
  · rw [List.filterMap_append, hnone, hnone', List.append_nil]

instance : Std.Refl Uncalled := ⟨Uncalled.refl⟩

instance : Trans Uncalled Uncalled Uncalled := ⟨Uncalled.trans⟩

/-- What is noted besides calls does not count. -/
theorem Tallied.uncalled {opened : Nat → Prop} (h : Tallied input opened d d')
    (h' : Uncalled d' d'') : Tallied input opened d d'' := by
  obtain ⟨notes, calls, hnotes, hcalls, hbacked⟩ := h
  obtain ⟨notes', hnotes', hnone⟩ := h'.notes
  refine ⟨notes ++ notes', calls, ?_, h'.calls.trans hcalls, ?_⟩
  · rw [hnotes', hnotes, List.append_assoc]
  · rw [List.filterMap_append, hnone, List.append_nil]
    -- A registration that was noted in the stretch is still noted when more notes follow.
    refine hbacked.imp fun noted call ⟨number, hopened, hcall⟩ => ⟨number, hopened, ?_⟩
    exact { hcall with registered := List.mem_append_left _ hcall.registered }

/-- Work in which no call is made is tallied. -/
theorem Uncalled.tallied {opened : Nat → Prop} (h : Uncalled d d') : Tallied input opened d d' :=
  Tallied.uncalled ⟨[], [], (List.append_nil _).symm, (List.append_nil _).symm, .nil⟩ h

/-- A stretch goes on without a call. -/
theorem Tally.uncalled (h : Tally input own d d' own') (h' : Uncalled d' d'') :
    Tally input own d d'' own' := by
  refine ⟨h.tallied.uncalled h', fun number hown => (h.opened number hown).imp_right fun hmem => ?_⟩
  obtain ⟨notes, hnotes, -⟩ := h'.notes
  exact hnotes ▸ List.mem_append_left notes hmem

/-- A stretch without a call. -/
theorem Uncalled.tally (h : Uncalled d d') (own : Option Nat) : Tally input own d d' own :=
  ⟨h.tallied, fun _ hown => .inl hown⟩

/-! ## Parts of a run -/

/-- What remains of a run that remembers its context tallies in each stretch. -/
def Tallies (input : RunInput)
    (last : Option Nat → World × List Note → World × List Note → Except ε α → Prop)
    (own : Option Nat) (start : World × List Note) (p : Paused (World × List Note) ε α) : Prop :=
  p.Follows (fun own d d' _ own' => Tally input own d d' own') last own start

/-- Work without a call that notes nothing. -/
theorem uncalled_work (notes : List Note) (h : w.SameCalls w') : Uncalled (w, notes) (w', notes) :=
  ⟨⟨[], (List.append_nil notes).symm, rfl⟩, h⟩

/-- A part of a run that does not call the executor notes no call. -/
theorem keepsTo_unnoted {q : Program World ε α} (h : q.KeepsTo SameCalls) :
    (unnoted q).KeepsTo Uncalled :=
  h.within fun d _ hcalls => uncalled_work d.2 hcalls

/-- Taking notes is no call, and these notes are not of one either. -/
theorem uncalled_note (d : World × List Note) {notes : List Note}
    (hnone : notes.filterMap call? = []) : Uncalled d (d.1, d.2 ++ notes) :=
  ⟨⟨notes, rfl, hnone⟩, rfl⟩

/-- A part of a run that does not call the executor may be noted. -/
theorem keepsTo_noted {notes : Except ε α → List Note} {q : Program World ε α}
    (hnone : ∀ r, (notes r).filterMap call? = []) (h : q.KeepsTo SameCalls) :
    (q.noted notes).KeepsTo Uncalled :=
  (keepsTo_unnoted h).attempt.bind fun r =>
    KeepsTo.bind (fun d => uncalled_note d (hnone r)) fun _ => keepsTo_ofExcept r

/-- Work without a call goes on with a stretch and remembers the same context. -/
theorem tallies_of_keepsTo {p : Paused (World × List Note) ε α} (h : p.KeepsTo Uncalled d)
    (hstart : Tally input own start d own') :
    Tallies input (fun own a s _ => Tally input own a s own') own start p := by
  refine (h.follows_from own' ?_ ?_).mono ?_
  · exact fun s _ hs => hstart.uncalled hs
  · exact fun a s _ hs => hs.tally own'
  · rintro q a s r (⟨rfl, rfl, hs⟩ | ⟨rfl, hs⟩)
    · exact hstart.uncalled hs
    · exact hs.tally _

/-- The call of a step is backed by the registration of its parameters: both are in one stretch, and
nothing has come between them. -/
theorem tallied_call (index : Nat) (step : Step) (hcalls : w.calls = start.1.calls)
    (hcontexts : w.contexts = start.1.contexts.set number ((start.1.contexts.getD number
      default).change (.register step.parameters input.organization.id)))
    (hok : (Context.register step.parameters input.organization.id
      (start.1.contexts.getD number default)).result = .ok ()) :
    Tallied input (fun n => some number = some n) start
      ({ w with calls := w.calls ++ [⟨input.run, step.label, w.contexts.getD number default⟩] },
        start.2 ++ [.step index (.registered (.ok ()))] ++ [.step index (.called step)]) := by
  let call : Call := ⟨input.run, step.label, w.contexts.getD number default⟩
  have hbacked : Backed input number start.1
      [.step index (.registered (.ok ())), .step index (.called step)] (step, index) call := by
    refine ⟨rfl, rfl, List.mem_cons_self, fun c hc => ?_⟩
    rw [World.getD_contexts hc] at hok hcontexts
    refine ⟨hok, ?_⟩
    -- The executor sees the entry of the context that the registration has just replaced.
    have hused : number < start.1.contexts.length := (List.getElem?_eq_some_iff.mp hc).1
    refine World.getD_contexts ?_
    rw [hcontexts, List.getElem?_set_self hused]
    rfl
  refine ⟨[.step index (.registered (.ok ())), .step index (.called step)], [call],
    List.append_assoc _ _ _, ?_, .cons ⟨number, rfl, hbacked⟩ .nil⟩
  show w.calls ++ [call] = start.1.calls ++ [call]
  rw [hcalls]

/-- Taking a step with the context locked, in a stretch that begins with it. -/
theorem tallies_takeStep (index : Nat) (step : Step) (hnotes : d.2 = start.2)
    (hcalls : d.1.calls = start.1.calls) (hcontexts : d.1.contexts = start.1.contexts) :
    Tallies input (fun own a s _ => Tally input own a s (some number)) (some number) start
      (takeStepNoted executor input flag number index step d) := by
  obtain ⟨w₁, registered, hended, -, hcalls₁, hcontexts₁, hok⟩ := onContext_change number
    ("Failed to register parameters for step " ++ step.label)
    (.register step.parameters input.organization.id) d.1
  have hregister : onContext number ("Failed to register parameters for step " ++ step.label)
      (Context.register step.parameters input.organization.id) d.1 = .ended w₁ registered := hended
  show ((noted _ _ d).bind _).Follows _ _ _ _
  rw [noted_of_ended hregister]
  cases registered with
  | error mishap =>
    -- Nothing is called after a registration that has failed.
    have huncalled : Uncalled start (w₁, d.2 ++ [.step index (.registered (.error mishap))]) :=
      ⟨⟨_, congrArg (· ++ _) hnotes, rfl⟩, hcalls₁.trans hcalls⟩
    exact huncalled.tally (some number)
  | ok u =>
    -- The note of the call and the call itself come before the executor may wait.
    let w₂ : World := { w₁ with
      calls := w₁.calls ++ [⟨input.run, step.label, w₁.contexts.getD number default⟩] }
    let d₂ : World × List Note :=
      (w₂, start.2 ++ [.step index (.registered (.ok ()))] ++ [.step index (.called step)])
    rw [hcontexts] at hcontexts₁ hok
    have hcalled : Tally input (some number) start d₂ (some number) :=
      ⟨tallied_call index step (hcalls₁.trans hcalls) hcontexts₁ (hok u rfl),
        fun _ hown => .inl hown⟩
    obtain ⟨p, hp, hexecute⟩ := execute_called executor input flag number step w₁
    have hwork : p.KeepsTo SameCalls :=
      hp SameCalls ((undisturbed_executor executor flag step _).mono fun _ _ h => h.calls)
    have hreturned : (p.noted fun r => [.step index (.returned r)]).KeepsTo Uncalled :=
      keepsTo_noted (fun _ => rfl) hwork
    have hexecuted := tallies_of_keepsTo (hreturned d₂) hcalled
    show ((noted _ _ (w₁, d.2 ++ _ ++ _)).bind _).Follows _ _ _ _
    rw [hnotes, noted_congr hexecute]
    refine hexecuted.bind (fun q a s output hheld => ?_) fun q a s e hheld => hheld
    -- Recording the output is one more note without a call, be it in this stretch or a later one.
    obtain ⟨w₃, recorded, hended, -, hcalls₃, -⟩ := onContext_change number
      ("Failed to record output of step " ++ step.label) (.record step.output output) s.1
    have hrecord : onContext number ("Failed to record output of step " ++ step.label)
        (Context.recordOutput step.output output) s.1 = .ended w₃ recorded := hended
    show ((noted _ _ s).bind _).Follows _ _ _ _
    rw [noted_of_ended hrecord]
    have huncalled : Uncalled s (w₃, s.2 ++ [.step index (.recorded recorded)]) :=
      ⟨⟨_, rfl, rfl⟩, hcalls₃⟩
    cases recorded with
    | error mishap => exact hheld.uncalled huncalled
    | ok u => exact hheld.uncalled huncalled

/-- Waiting for the lock of the context, then taking a step: what the run remembers is its context,
and in the stretch that begins with the lock it works on that. -/
theorem tallies_takeStepLocked (index : Nat) (step : Step)
    (h : Tally input own start d (some number)) :
    Tallies input (fun own a s _ => Tally input own a s (some number)) own start
      (takeStepLockedNoted executor input flag number index step d) := by
  -- The wait ends the stretch that has led here. Whatever state is found, the next one begins in
  -- it.
  refine ⟨some number, h, fun found => ?_⟩
  let locked : World × List Note :=
    ({ found.1 with locks := ⟨number, flag⟩ :: found.1.locks }, found.2)
  have htaken : Tallies input (fun own a s _ => Tally input own a s (some number)) (some number)
      found (takeStepNoted executor input flag number index step locked) :=
    tallies_takeStep index step rfl rfl rfl
  refine htaken.attempt.bind ?_ ?_
  · rintro q a s r ⟨r', hr, hheld⟩
    cases hr
    have hunlock : Uncalled s (s.1.unlock flag, s.2) := uncalled_work s.2 rfl
    exact hheld.uncalled hunlock
  · rintro q a s e ⟨r', hr, -⟩
    cases hr

/-- Taking the steps that are left. -/
theorem tallies_takeSteps (steps : List Step) (taken : Nat) (outputs : KeyMap Json)
    (h : Tally input own start d (some number)) :
    Tallies input (fun own a s _ => Tally input own a s (some number)) own start
      (takeStepsNoted executor input flag number taken outputs steps d) := by
  induction steps generalizing taken outputs own start d with
  | nil => exact h
  | cons step rest ih =>
    have hchecked : ∀ raised,
        Tally input own start (d.1, d.2 ++ [.step taken (.checked raised)]) (some number) :=
      fun _ => h.uncalled (uncalled_note d rfl)
    show ((note [.step taken (.checked (d.1.flagged flag))] >>= fun _ => _) d).Follows _ _ _ _
    cases d.1.flagged flag with
    | true =>
      have hreport : Uncalled (d.1, d.2 ++ [.step taken (.checked true)])
          (d.1.logged [.runCancelled input.run step.label],
            d.2 ++ [.step taken (.checked true)]) := uncalled_work _ rfl
      exact (hchecked true).uncalled hreport
    | false =>
      refine (tallies_takeStepLocked taken step (hchecked false)).bind ?_ fun _ _ _ _ hheld => hheld
      exact fun q a s output hheld =>
        ih (taken + 1) (outputs.insert step.output.key output) hheld

/-! ## The whole run -/

/-- No step is executed while a context is created. -/
theorem keepsTo_create (run : String) (organization : Organization) (declarations : Declarations) :
    (Registry.create run organization declarations).KeepsTo SameCalls := by
  refine fun w => (Registry.follows_create run organization declarations (.refl w)).keepsTo
    (fun _ _ _ _ _ hstep => hstep.aside.calls) fun q a s r hreturns => ?_
  cases hreturns with
  | refused aside => exact aside.calls
  | created => assumption

/-- No step is executed when a run wraps up. -/
theorem keepsTo_wrapUp (input : RunInput) (result : Except Mishap Summary) :
    (input.wrapUp result).KeepsTo SameCalls := by
  have hdiscard : (Registry.discard input.run : Program World Failure Bool).KeepsTo SameCalls :=
    (keepsTo_waitFor .turn).bind fun _ w => (Registry.discardNow_same input.run w).2.1
  refine hdiscard.bind fun _ => ?_
  cases result with
  | ok summary => exact KeepsTo.bind (fun _ => rfl) fun _ => keepsTo_pure summary
  | error mishap => exact KeepsTo.bind (fun _ => rfl) fun _ => keepsTo_fail _

/-- The opening of a context. From then on the run remembers the context, having just noted its
number. -/
theorem tallies_openContext (declarations : Declarations) (h : Tally input own start d none) :
    Tallies input (fun own a s r => Tally input own a s r.toOption) own start
      ((input.openContext declarations).noted openingNotes d) := by
  have hopen : (unnoted (input.openContext declarations)).KeepsTo Uncalled :=
    keepsTo_unnoted (keepsTo_openContext (fun _ _ => rfl) (keepsTo_create _ _ _))
  refine (tallies_of_keepsTo (hopen.attempt d) h).bind ?_ ?_
  · -- Until it ends the opening notes nothing; what it notes then is the context, if there is one.
    intro q a s r hheld
    have hnoted : Uncalled s (s.1, s.2 ++ openingNotes r) := by
      refine uncalled_note s ?_
      cases r with
      | ok number => rfl
      | error failure => rfl
    cases r with
    | error failure => exact hheld.uncalled hnoted
    | ok number =>
      refine ⟨hheld.tallied.uncalled hnoted, fun n hn => .inr ?_⟩
      cases hn
      exact List.mem_append_right _ (List.mem_singleton.mpr rfl)
  · exact fun q a s e hheld => hheld

/-- A run tallies from start to end. -/
theorem tallies_perform (executor : Executor) (input : RunInput) (flag : Nat)
    (d : World × List Note) :
    Tallies input (fun own a s _ => ∃ own', Tally input own a s own') none d
      (performNoted executor input flag d) := by
  unfold performNoted
  show ((Program.ofExcept _ d).bind _).Follows _ _ _ _
  cases input.workflow.declarations input.inputs with
  | error report => exact ⟨none, (Uncalled.refl d).tally none⟩
  | ok declarations =>
    let started : World × List Note := (d.1.logged
      [.runStarting input.run input.organization.id input.workflow.steps.length], d.2)
    have hstarted : Uncalled d started := uncalled_work d.2 rfl
    show ((noted _ _ started).bind _).Follows _ _ _ _
    refine (tallies_openContext declarations (hstarted.tally none)).bind ?_ ?_
    · intro q a s number hopened
      show ((takeStepsNoted executor input flag number 0 ∅ input.workflow.steps s).attempt.bind
        _).Follows _ _ _ _
      refine (tallies_takeSteps input.workflow.steps 0 ∅ hopened).attempt.bind ?_ ?_
      · rintro q a s r ⟨_, hr, hheld⟩
        cases hr
        have hwrapUp := keepsTo_unnoted (keepsTo_wrapUp input r) s
        exact (tallies_of_keepsTo hwrapUp hheld).mono fun q a s r hheld => ⟨_, hheld⟩
      · rintro q a s e ⟨result, hr, -⟩
        cases hr
    · exact fun q a s e hheld => ⟨_, hheld⟩

/-- What a run has remembered is told by its notes, if it was so before. -/
theorem Tally.noted (h : Tally input own d d' own')
    (hown : ∀ number, own = some number → .opened number ∈ d.2) :
    Tallied input (fun number => .opened number ∈ d.2) d d' ∧
      ∀ number, own' = some number → .opened number ∈ d'.2 := by
  obtain ⟨notes, calls, hnotes, hcalls, hbacked⟩ := h.tallied
  refine ⟨⟨notes, calls, hnotes, hcalls, ?_⟩, fun number hown' => ?_⟩
  · exact hbacked.imp fun _ _ ⟨number, hopened, hcall⟩ => ⟨number, hown number hopened, hcall⟩
  · rcases h.opened number hown' with hbefore | hnoted
    · exact hnotes ▸ List.mem_append_left notes (hown number hbefore)
    · exact hnoted

/-- The calls that a run notes are those that it makes. Up to any moment of a run, whatever the
others do to the world while it waits, each of its stretches adds to the calls of the world those
that it notes, one for one and in the same order. Such a call is for the step that is noted; in the
same stretch it has been noted that the parameters of the step were registered, and the registration
succeeds in the context that the stretch has found under the number that the run has noted. What
this registration makes of it is the context that the executor sees. -/
theorem perform_calls {stretches : List ((World × List Note) × (World × List Note))}
    (h : (performNoted executor input flag (w, [])).Stretches Paused.Aside (w, []) stretches) :
    ∀ x ∈ stretches, Tallied input (fun number => .opened number ∈ x.1.2) x.1 x.2 := by
  refine (tallies_perform executor input flag (w, [])).of_stretches
    (fun own d => ∀ number, own = some number → .opened number ∈ d.2)
    (fun d d' => Tallied input (fun number => .opened number ∈ d.2) d d') ?_ ?_ ?_ h
  · exact fun number hown => nomatch hown
  · intro own d d' _ own' hown htally
    obtain ⟨htallied, hown'⟩ := htally.noted hown
    -- Others leave the notes alone, so the number is still among them when the run goes on.
    refine ⟨htallied, fun found haside number hnumber => ?_⟩
    rw [show found.2 = d'.2 from haside]
    exact hown' number hnumber
  · rintro own d d' _ hown ⟨own', htally⟩
    exact (htally.noted hown).1

/-- A run with two steps, the first of which waits for the clock: the stretches that note a call are
those in which the world gains one. -/
example :
    let workflow : Workflow := ⟨[], [], [], [], [⟨"a", [], none⟩, ⟨"b", [], none⟩]⟩
    let executor : Executor := fun step _ => do
      if step.label = "a" then Stage.sleep 1
      return .text step.label
    let w := (World.start .standard (Memory.backend .empty) default).addFlag.2
    let p := performNoted executor ⟨"r", ⟨"acme", none⟩, workflow, ∅⟩ 0 (w, [])
    let history := p.history (fun wait d => (World.pass wait d.1, d.2)) (w, [])
    history.map (fun x => ((x.2.2.drop x.1.2.length).filterMap call?).length) =
        [0, 0, 0, 1, 0, 1, 0] ∧
      history.map (fun x => x.2.1.calls.length - x.1.1.calls.length) = [0, 0, 0, 1, 0, 1, 0] := by
  decide +kernel

end RunInput

end RunParams
