import RunParams.Proofs.BoundValues.Survival
import RunParams.Proofs.Context.Provision
import RunParams.Proofs.Program.Histories
import RunParams.Proofs.Registry.Creation
import RunParams.Proofs.Run.Phases

/-!
# The course of a run

From outside, all that counts of a run is its context and the steps that it has still to take. This
is its `Course`. `Course.Leads` says what a run does to the world on its course: it opens a context
under an id that has none, works on no context but this one, and has its steps executed one after
the other. Each is executed with a context that provides the parameters of the step
(`Call.IsFor`), as long as the context of the run is supplied, and so it is unless others take a
value away (`World.Holds`).

`RunInput.course_perform` follows a run along its course. A run that has not opened a context ends
with an error and leaves everything as it was, and one that has discards it (`Course.Ends`).
-/

namespace RunParams

/-- Nothing has changed in the registry and in the contexts, and no step has been executed. -/
structure World.Undisturbed (w w' : World) : Prop where
  live : w'.live = w.live
  contexts : w'.contexts = w.contexts
  calls : w'.calls = w.calls

/-- A context with a number is there and is supplied. -/
def World.Holds (w : World) (own : Option Nat) : Prop :=
  ∀ number, own = some number → ∃ c, w.contexts[number]? = some c ∧ c.store.Supplied

/-- A call of the executor on behalf of a run is for a step, and the context provides the parameters
of the step. -/
structure Call.IsFor (call : Call) (run : String) (step : Step) : Prop where
  run : call.run = run
  label : call.label = step.label
  provides : ∀ p ∈ step.parameters, call.context.Provides p

/-- What a run has still before it. -/
structure Course where
  /-- The context that it has opened. -/
  own : Option Nat
  /-- The steps that have not been executed. -/
  left : List Step

/-- What a run may have done since a stretch began on a course, when it is on another one. -/
structure Course.Leads (run : String) (q : Course) (start w : World) (q' : Course) : Prop where
  opened : q'.own = q.own ∧ w.live = start.live ∨
    q.own = none ∧ ∃ number, q'.own = some number ∧ start.Gains run number w
  others : ∀ n, n < start.contexts.length → q'.own ≠ some n →
    w.contexts[n]? = start.contexts[n]?
  /-- Without a context it has not done anything. -/
  idle : q'.own = none → start.Undisturbed w
  /-- What it has had executed are the next steps. -/
  executed : start.Holds q.own → w.Holds q'.own ∧ ∃ taken called, q.left = taken ++ q'.left ∧
    w.calls = start.calls ++ called ∧
    List.Forall₂ (fun step call => call.IsFor run step) taken called

/-- What a run does in its last stretch, and what it returns. -/
structure Course.Ends {α : Type} (run : String) (q : Course) (start w : World)
    (r : Except Failure α) : Prop where
  contexts : w.contexts = start.contexts
  calls : w.calls = start.calls
  live : q.own = none ∧ w.live = start.live ∧ (∃ e, r = .error e) ∨
    q.own ≠ none ∧ w.live = start.live.erase run

variable {run : String} {q q' : Course} {start w w' w'' : World} {number : Nat}
  {left rest : List Step} {step : Step} {ε α : Type}

namespace World

/-- Nothing is touched in no time. -/
theorem Undisturbed.refl (w : World) : w.Undisturbed w := ⟨rfl, rfl, rfl⟩

/-- What is not touched twice is not touched. -/
theorem Undisturbed.trans (h : w.Undisturbed w') (h' : w'.Undisturbed w'') : w.Undisturbed w'' :=
  ⟨h'.live.trans h.live, h'.contexts.trans h.contexts, h'.calls.trans h.calls⟩

instance : Std.Refl Undisturbed := ⟨Undisturbed.refl⟩

instance : Trans Undisturbed Undisturbed Undisturbed := ⟨Undisturbed.trans⟩

/-- A context that nobody touches stays supplied. -/
theorem Holds.undisturbed {own : Option Nat} (h : w.Holds own) (h' : w.Undisturbed w') :
    w'.Holds own := by
  unfold Holds
  rw [h'.contexts]
  exact h

end World

open World Program

namespace Course

/-! ## Steps on the course of a run -/

/-- A stretch that has just begun has done nothing. -/
theorem Leads.refl (run : String) (q : Course) (w : World) : q.Leads run w w q :=
  ⟨.inl ⟨rfl, rfl⟩, fun _ _ _ => rfl, fun _ => .refl w,
    fun h => ⟨h, [], [], rfl, (List.append_nil _).symm, .nil⟩⟩

/-- Work that leaves what is live does not make up for an opening. -/
theorem Leads.opened_of (h : q.Leads run start w q') (hlive : w'.live = w.live)
    (hcount : w.contexts.length ≤ w'.contexts.length) :
    q'.own = q.own ∧ w'.live = start.live ∨
      q.own = none ∧ ∃ number, q'.own = some number ∧ start.Gains run number w' := by
  -- What happened after the opening has not changed what is live.
  rcases h.opened with ⟨hown, hsame⟩ | ⟨hnone, number, hown, hgains⟩
  · exact .inl ⟨hown, hlive.trans hsame⟩
  · obtain ⟨createdAt, hinsert⟩ := hgains.live
    exact .inr ⟨hnone, number, hown, hgains.free, ⟨createdAt, hlive.trans hinsert⟩, hgains.unused,
      Nat.lt_of_lt_of_le hgains.used hcount⟩

/-- Work that touches nothing leads nowhere else. -/
theorem Leads.undisturbed (h : q.Leads run start w q') (h' : w.Undisturbed w') :
    q.Leads run start w' q' := by
  refine ⟨h.opened_of h'.live (Nat.le_of_eq (congrArg List.length h'.contexts).symm), ?_, ?_, ?_⟩
  · -- Contexts of others are left alone, an idle run does nothing, and what has been executed stays
    -- so.
    intro n hn hne
    rw [h'.contexts]
    exact h.others n hn hne
  · exact fun hnone => (h.idle hnone).trans h'
  · intro hholds
    obtain ⟨hheld, taken, called, hleft, hcalls, hall⟩ := h.executed hholds
    exact ⟨hheld.undisturbed h', taken, called, hleft, h'.calls.trans hcalls, hall⟩

/-- A change of the own context leads nowhere else. -/
theorem Leads.change (h : q.Leads run start w ⟨some number, left⟩) (change : Change)
    (hlive : w'.live = w.live) (hcalls : w'.calls = w.calls)
    (hcontexts : w'.contexts =
      w.contexts.set number ((w.contexts.getD number default).change change)) :
    q.Leads run start w' ⟨some number, left⟩ := by
  have hlength : w'.contexts.length = w.contexts.length := by rw [hcontexts, List.length_set]
  refine ⟨h.opened_of hlive (Nat.le_of_eq hlength.symm), ?_, ?_, ?_⟩
  · -- Only the context of the run changes, and it has one.
    intro n hn hne
    have hother : number ≠ n := fun hsame => hne (congrArg some hsame)
    rw [hcontexts, List.getElem?_set_ne hother]
    exact h.others n hn hne
  · exact fun hnone => nomatch hnone
  · intro hholds
    obtain ⟨hheld, taken, called, hleft, hcalled, hall⟩ := h.executed hholds
    refine ⟨?_, taken, called, hleft, hcalls.trans hcalled, hall⟩
    -- What is supplied there stays supplied, whatever the change.
    rintro _ ⟨⟩
    obtain ⟨c, hc, hsupplied⟩ := hheld number rfl
    have hused : number < w.contexts.length := (List.getElem?_eq_some_iff.mp hc).1
    refine ⟨c.change change, ?_, Context.supplied_change hsupplied change⟩
    rw [hcontexts, World.getD_contexts hc, List.getElem?_set_self hused]

/-- The execution of the next step, whose parameters are registered, leads to the steps after it.
-/
theorem Leads.call (h : q.Leads run start w ⟨some number, step :: rest⟩)
    (hregistered : w.Holds (some number) → ∀ p ∈ step.parameters,
      (w.contexts.getD number default).store.isRegistered p = true) :
    q.Leads run start { w with
      calls := w.calls ++ [⟨run, step.label, w.contexts.getD number default⟩] }
      ⟨some number, rest⟩ := by
  refine ⟨h.opened_of rfl (Nat.le_refl _), h.others, fun hnone => (nomatch hnone), ?_⟩
  -- The step is now among those taken, and its call is the last one.
  intro hholds
  obtain ⟨hheld, taken, called, hleft, hcalls, hall⟩ := h.executed hholds
  obtain ⟨c, hc, hsupplied⟩ := hheld number rfl
  have hregistered := hregistered hheld
  rw [World.getD_contexts hc] at hregistered ⊢
  -- All that the step lists is registered in the context, so the executor can read it.
  have hcall : Call.IsFor ⟨run, step.label, c⟩ run step :=
    ⟨rfl, rfl, fun p hp => Context.provides_of_isRegistered hsupplied (hregistered p hp)⟩
  refine ⟨hheld, taken ++ [step], called ++ [⟨run, step.label, c⟩], ?_, ?_, ?_⟩
  · rw [hleft, List.append_assoc]
    rfl
  · show w.calls ++ _ = _
    rw [hcalls, List.append_assoc]
  · exact List.rel_append hall (.cons hcall .nil)

/-- A creation that succeeds opens the context of a run, and it is supplied. -/
theorem Leads.created {organization : Organization} {declarations : Declarations}
    {creation : Registry.Creation} (hnone : q.own = none)
    (h : creation.Returns run organization declarations start w (.ok number)) :
    q.Leads run start w ⟨some number, q.left⟩ := by
  -- Of the ways in which a creation returns only success concerns an opened context.
  cases h with
  | @created c free own named fills contexts live settings calls draws =>
    have hlength : start.contexts.length < w.contexts.length := by
      rw [contexts, List.length_append]
      exact Nat.lt_succ_self _
    -- In a context that has just been bound every definition is supplied.
    have hsupplied : c.store.Supplied := by
      obtain ⟨settings, createdAt, around, around', hend⟩ := own
      have hfresh := Context.wellBound_changed_fresh settings run organization createdAt []
      exact (Desk.preserves_bindAll declarations _ _ () hfresh hend).supplied
    refine ⟨.inr ⟨hnone, _, rfl, free, ⟨c.createdAt, live⟩, Nat.le_refl _, hlength⟩, ?_,
      fun hown => (nomatch hown), fun _ => ⟨?_, [], [], rfl, ?_, .nil⟩⟩
    · -- The new context comes after all others.
      intro n hn _
      rw [contexts, List.getElem?_append_left hn]
    · rintro _ ⟨⟩
      refine ⟨c, ?_, hsupplied⟩
      rw [contexts, List.getElem?_concat_length]
    · rw [calls, List.append_nil]

end Course

namespace RunInput

variable {executor : Executor} {input : RunInput} {flag : Nat}

/-- What remains of a run goes on along its course. -/
def OnCourse (run : String) (last : Course → World → World → Except ε α → Prop) (q : Course)
    (start : World) (p : Paused World ε α) : Prop :=
  p.Follows (fun q start w _ q' => q.Leads run start w q') last q start

/-- A part of a run with a context has returned, and if it has succeeded there are certain steps
left. -/
def Arrives (run : String) (number : Nat) (rest : List Step) (q : Course) (start w : World)
    (r : Except ε α) : Prop :=
  ∃ left, q.Leads run start w ⟨some number, left⟩ ∧ ∀ a, r = .ok a → left = rest

/-! ## A step -/

/-- A change of the context on the way of a run is done at once. -/
theorem onContext_change (number : Nat) (doing : String) (change : Change) (w : World) :
    ∃ w' r, onContext number doing change.action w = .ended w' r ∧ w'.live = w.live ∧
      w'.calls = w.calls ∧
      w'.contexts = w.contexts.set number ((w.contexts.getD number default).change change) ∧
      (∀ u, r = .ok u → (change.action (w.contexts.getD number default)).result = .ok u) := by
  let effect := change.action (w.contexts.getD number default)
  let left := { w with contexts := w.contexts.set number effect.state }.logged effect.events
  have hdone : ∀ next : Except BindingError Unit → Program World Mishap Unit,
      ((World.act number change.action).attempt >>= next) w = next effect.result left :=
    fun _ => rfl
  unfold onContext
  rw [hdone]
  -- Whether the change succeeds or not, the context is what the change has made of it.
  cases effect.result with
  | ok _ => exact ⟨left, _, rfl, rfl, rfl, rfl, fun _ _ => rfl⟩
  | error e => exact ⟨left, _, rfl, rfl, rfl, rfl, fun _ hok => nomatch hok⟩

/-- What an executor does on its stage touches nothing. -/
theorem undisturbed_executor (executor : Executor) (flag : Nat) (step : Step) (context : Context) :
    ((executor step context).within (Stage.ofWorld flag) (Stage.toWorld flag)).KeepsTo
      Undisturbed := by
  have hstage : (executor step context).KeepsTo fun _ _ : Stage => True :=
    keepsTo_of_forall (fun _ _ => trivial) _
  exact hstage.within fun _ _ _ => ⟨rfl, rfl, rfl⟩

/-- When the parameters of a step have been registered in a context that is there, they are
registered in it. -/
theorem isRegistered_onContext {parameters : List Parameter} {organization : String}
    (hcontexts : w'.contexts = w.contexts.set number
      ((w.contexts.getD number default).change (.register parameters organization)))
    (hok : (Context.register parameters organization (w.contexts.getD number default)).result =
      .ok ()) (hheld : w'.Holds (some number)) :
    ∀ p ∈ parameters, (w'.contexts.getD number default).store.isRegistered p = true := by
  intro p hp
  obtain ⟨c, hc, -⟩ := hheld number rfl
  -- The context was there before the change as well.
  have hused : number < w.contexts.length := by
    have hlength := (List.getElem?_eq_some_iff.mp hc).1
    rwa [hcontexts, List.length_set] at hlength
  have hget : w'.contexts.getD number default =
      (w.contexts.getD number default).change (.register parameters organization) := by
    refine World.getD_contexts ?_
    rw [hcontexts, List.getElem?_set_self hused]
  obtain ⟨hresult, hstate⟩ :=
    Context.register_eq (w.contexts.getD number default) parameters organization
  rw [hget]
  show (Context.register parameters organization _).state.store.isRegistered p = true
  rw [hstate]
  exact Store.isRegistered_register (hresult.symm.trans hok) hp

/-- Taking a step: its parameters are registered, and with the context as it is then the step is
executed. -/
theorem course_takeStep (h : q.Leads input.run start w ⟨some number, step :: rest⟩) :
    OnCourse input.run (Arrives input.run number rest) q start
      (takeStep executor input flag number step w) := by
  obtain ⟨w₁, registered, hregister, hlive, hcalls, hcontexts, hok⟩ := onContext_change number
    ("Failed to register parameters for step " ++ step.label)
    (.register step.parameters input.organization.id) w
  have h₁ := h.change (.register step.parameters input.organization.id) hlive hcalls hcontexts
  show ((onContext number _ _ w).bind _).Follows _ _ _ _
  rw [show onContext number _ (Context.register step.parameters input.organization.id) w =
    .ended w₁ registered from hregister]
  -- A step goes on only when its parameters are registered, and is over only when its output is
  -- recorded; each part may be the last one.
  cases registered with
  | error e => exact ⟨_, h₁, fun a ha => nomatch ha⟩
  | ok _ =>
    obtain ⟨p, hp, hexecute⟩ := execute_called executor input flag number step w₁
    have hcalled := h₁.call fun hheld => isRegistered_onContext hcontexts (hok _ rfl) hheld
    show ((execute executor input flag number step w₁).bind _).Follows _ _ _ _
    rw [hexecute]
    -- The call is made in the first stretch. Later stretches of the executor make no other one.
    have hexecuted : OnCourse input.run
        (fun q a s (_ : Except Mishap Json) => q.Leads input.run a s ⟨some number, rest⟩) q start
        (p { w₁ with
          calls := w₁.calls ++ [⟨input.run, step.label, w₁.contexts.getD number default⟩] }) := by
      refine ((hp Undisturbed (undisturbed_executor executor flag step _) _).follows_from
        ⟨some number, rest⟩ ?_ ?_).mono ?_
      · exact fun s _ hundisturbed => hcalled.undisturbed hundisturbed
      · exact fun a s _ hundisturbed => (Course.Leads.refl _ _ a).undisturbed hundisturbed
      · -- As the call is in the first stretch, it is accounted for there and only there.
        rintro q a s r (⟨rfl, rfl, hundisturbed⟩ | ⟨rfl, hundisturbed⟩)
        · exact hcalled.undisturbed hundisturbed
        · exact (Course.Leads.refl _ _ a).undisturbed hundisturbed
    refine hexecuted.bind (fun q a s output hled => ?_) fun q a s e hled =>
      ⟨rest, hled, fun _ _ => rfl⟩
    obtain ⟨w₂, recorded, hrecord, hlive₂, hcalls₂, hcontexts₂, -⟩ := onContext_change number
      ("Failed to record output of step " ++ step.label) (.record step.output output) s
    have h₂ := hled.change (.record step.output output) hlive₂ hcalls₂ hcontexts₂
    show ((onContext number _ _ s).bind _).Follows _ _ _ _
    rw [show onContext number _ (Context.recordOutput step.output output) s =
      .ended w₂ recorded from hrecord]
    -- The step has been executed, whether its output could be recorded or not.
    cases recorded with
    | error e => exact ⟨rest, h₂, fun _ _ => rfl⟩
    | ok _ => exact ⟨rest, h₂, fun _ _ => rfl⟩

/-- Waiting for the lock of the context, then taking a step. -/
theorem course_takeStepLocked (h : q.Leads input.run start w ⟨some number, step :: rest⟩) :
    OnCourse input.run (Arrives input.run number rest) q start
      (takeStepLocked executor input flag number step w) := by
  -- Before the lock nothing happens, so the step is still ahead when the lock is there.
  refine ⟨⟨some number, step :: rest⟩, h, fun s => ?_⟩
  let locked : World := { s with locks := ⟨number, flag⟩ :: s.locks }
  have hlocked : s.Undisturbed locked := ⟨rfl, rfl, rfl⟩
  have hunlock : ∀ s : World, s.Undisturbed (s.unlock flag) := fun _ => ⟨rfl, rfl, rfl⟩
  have htaken : OnCourse input.run (Arrives input.run number rest) ⟨some number, step :: rest⟩ s
      (takeStep executor input flag number step locked) :=
    course_takeStep ((Course.Leads.refl _ _ s).undisturbed hlocked)
  refine htaken.attempt.bind ?_ ?_
  · -- When the lock is given up the course is what the step has made of it.
    rintro q a s r ⟨r', hr, left, hled, hleft⟩
    cases hr
    exact ⟨left, hled.undisturbed (hunlock s), hleft⟩
  · rintro q a s e ⟨_, hr, -⟩
    cases hr

/-- Taking the steps that are left. -/
theorem course_takeSteps (steps : List Step) (taken : Nat) (outputs : KeyMap Json)
    (h : q.Leads input.run start w ⟨some number, steps⟩) :
    OnCourse input.run (fun q a s _ => ∃ left, q.Leads input.run a s ⟨some number, left⟩) q start
      (takeSteps executor input flag number taken outputs steps w) := by
  -- The induction is on the steps that are left, which is what a course keeps track of.
  induction steps generalizing taken outputs q start w with
  | nil => exact ⟨[], h⟩
  | cons step rest ih =>
    show ((if w.flagged flag then _ else _ : Program World Mishap Summary) w).Follows _ _ _ _
    -- A run that is asked to stop leaves the rest of its steps.
    cases w.flagged flag with
    | true =>
      have hreport : w.Undisturbed (w.logged [.runCancelled input.run step.label]) :=
        ⟨rfl, rfl, rfl⟩
      exact ⟨step :: rest, h.undisturbed hreport⟩
    | false =>
      -- A step that was taken is off the list, and the rest begin where it has led.
      refine (course_takeStepLocked h).bind ?_ ?_
      · rintro q a s output ⟨left, hled, hleft⟩
        rw [hleft output rfl] at hled
        exact ih (taken + 1) (outputs.insert step.output.key output) hled
      · rintro q a s e ⟨left, hled, -⟩
        exact ⟨left, hled⟩

/-! ## The whole run -/

/-- Opening the context of a run: it is opened in the last stretch, or nothing has happened. -/
theorem course_openContext (declarations : Declarations) (steps : List Step)
    (h : start.Aside w) :
    OnCourse input.run (fun q a s r => q = ⟨none, steps⟩ ∧
      (∀ number, r = .ok number → q.Leads input.run a s ⟨some number, steps⟩) ∧
      ∀ e, r = .error e → a.Undisturbed s) ⟨none, steps⟩ start
      (openContext input declarations w) := by
  have haside : ∀ {a s : World}, a.Aside s → a.Undisturbed s :=
    fun h => ⟨h.quiet.live, h.quiet.contexts, h.calls⟩
  -- A creation succeeds with a context of the run, or it fails and has disturbed nothing.
  have hcreate : OnCourse input.run (fun q a s r => q = ⟨none, steps⟩ ∧
      (∀ number, r = .ok number → q.Leads input.run a s ⟨some number, steps⟩) ∧
      ∀ e, r = .error e → a.Undisturbed s) ⟨none, steps⟩ start
      (Registry.create input.run input.organization declarations w) := by
    refine (Registry.follows_create input.run input.organization declarations h).map
      (fun _ => (⟨none, steps⟩ : Course)) ?_ ?_
    · exact fun q a s _ q' hstep => (Course.Leads.refl _ _ a).undisturbed (haside hstep.aside)
    · intro q a s r hreturns
      refine ⟨rfl, ?_, ?_⟩
      · rintro number rfl
        exact Course.Leads.created rfl hreturns
      · rintro e rfl
        cases hreturns with
        | refused aside => exact haside aside
  refine hcreate.attempt.bind ?_ ?_
  · rintro q a s r ⟨result, hr, rfl, hok, herror⟩
    cases hr
    -- A failure is reported when the definition is to blame, and that disturbs nothing either.
    cases r with
    | ok number =>
      exact ⟨rfl, fun n hn => Except.ok.inj hn ▸ hok number rfl, fun _ he => (nomatch he)⟩
    | error e =>
      have hreport : s.Undisturbed (s.logged [.definitionRejected input.run e]) := ⟨rfl, rfl, rfl⟩
      show ((if e.isDefinitionError then _ else _ : Program World Failure Nat) s).Follows _ _ _ _
      cases e.isDefinitionError with
      | true =>
        exact ⟨rfl, fun _ hn => (nomatch hn), fun _ _ => (herror e rfl).trans hreport⟩
      | false => exact ⟨rfl, fun _ hn => (nomatch hn), fun _ _ => herror e rfl⟩
  · rintro q a s e ⟨_, hr, -⟩
    cases hr

/-- A run with a context discards it, and nothing of any import comes after that. -/
theorem ends_discard (hown : q.own ≠ none) (w : World) (events : List Event)
    (r : Except Failure α) :
    q.Ends run w ((Registry.discardNow run w).2.logged events) r := by
  obtain ⟨hcontexts, hcalls, -⟩ := Registry.discardNow_same run w
  exact ⟨hcontexts, hcalls, .inr ⟨hown, Registry.live_discardNow run w⟩⟩

/-- A run goes on along its course from all its steps on, and ends as `Course.Ends` says. -/
theorem course_perform (executor : Executor) (input : RunInput) (flag : Nat) (w : World) :
    OnCourse input.run (Course.Ends input.run) ⟨none, input.workflow.steps⟩ w
      (input.perform executor flag w) := by
  unfold perform
  show ((Program.ofExcept _ w).bind _).Follows _ _ _ _
  -- Without declarations the run has no course.
  cases input.workflow.declarations input.inputs with
  | error e => exact ⟨rfl, rfl, .inl ⟨rfl, rfl, _, rfl⟩⟩
  | ok declarations =>
    have hstarted : w.Aside (w.logged
        [.runStarting input.run input.organization.id input.workflow.steps.length]) :=
      ⟨⟨rfl, rfl, rfl⟩, rfl, .refl _⟩
    show ((openContext input declarations _).bind _).Follows _ _ _ _
    refine (course_openContext declarations input.workflow.steps hstarted).bind ?_ ?_
    · rintro q a s number ⟨rfl, hopened, -⟩
      show (((takeSteps executor input flag number 0 ∅ input.workflow.steps s).attempt).bind
        _).Follows _ _ _ _
      have hcourse : OnCourse input.run
          (fun q a s _ => ∃ left, q.Leads input.run a s ⟨some number, left⟩)
          ⟨none, input.workflow.steps⟩ a
          (takeSteps executor input flag number 0 ∅ input.workflow.steps s) :=
        course_takeSteps input.workflow.steps 0 ∅ (hopened number rfl)
      -- The context is discarded at the end of the course, at whatever step that is.
      refine hcourse.attempt.bind ?_ ?_
      · rintro q a s r ⟨result, hr, left, hled⟩
        cases hr
        -- The turn before the context is discarded ends the stretch.
        refine ⟨⟨some number, left⟩, hled, fun s => ?_⟩
        cases r with
        | ok summary => exact ends_discard (Option.some_ne_none number) s _ _
        | error mishap => exact ends_discard (Option.some_ne_none number) s _ _
      · rintro q a s e ⟨_, hr, -⟩
        cases hr
    · -- The run was not opened, so nothing is to be discarded.
      rintro q a s e ⟨rfl, -, hfailed⟩
      have hundisturbed := hfailed e rfl
      exact ⟨hundisturbed.contexts, hundisturbed.calls, .inl ⟨rfl, hundisturbed.live, e, rfl⟩⟩

end RunInput

end RunParams
