import RunParams.Proofs.Program.Notes
import RunParams.Proofs.Run.Parts

/-!
# A run that takes notes

To say in which order a run does things, it is made to take notes: of the opening of its context,
and of what happens in each of its steps (`RunInput.performNoted`). When the notes are forgotten,
this is the run (`RunInput.forgets_perform`).

Whatever others do to the world while the run waits, its notes tell one of a few stories
(`RunInput.Story`): some steps are taken, each with one attempt that succeeds, and then there is no
step left, or the run sees that it should stop, or the attempt to take the next step fails
(`RunInput.Attempt`). At any moment before the end they tell such a story up to some point
(`RunInput.tells_perform`).
-/

namespace RunParams

/-- What happens in a step of a run. -/
inductive StepNote where
  /-- The run has looked whether it should stop. -/
  | checked (raised : Bool)
  /-- The parameters have been registered, or not. -/
  | registered (result : Except Mishap Unit)
  /-- The executor is called. -/
  | called (step : Step)
  /-- The executor has returned. -/
  | returned (result : Except Mishap Json)
  /-- The output has been recorded, or not. -/
  | recorded (result : Except Mishap Unit)

/-- What happens in a run. -/
inductive Note where
  /-- It has opened the context with a number. -/
  | opened (number : Nat)
  /-- Something has happened in the step at an index. -/
  | step (index : Nat) (what : StepNote)

namespace RunInput

open Program Paused

variable {executor : Executor} {input : RunInput} {flag number : Nat}

/-! ## Taking notes -/

/-- Takes the step at an index, as `takeStep` does, and takes notes. -/
def takeStepNoted (executor : Executor) (input : RunInput) (flag number index : Nat) (step : Step) :
    Program (World × List Note) Mishap Json := do
  (onContext number ("Failed to register parameters for step " ++ step.label)
    (Context.register step.parameters input.organization.id)).noted
      fun r => [.step index (.registered r)]
  note [.step index (.called step)]
  let output ← (execute executor input flag number step).noted
    fun r => [.step index (.returned r)]
  (onContext number ("Failed to record output of step " ++ step.label)
    (Context.recordOutput step.output output)).noted fun r => [.step index (.recorded r)]
  return output

/-- Takes a step with the context locked, as `takeStepLocked` does, and takes notes. -/
def takeStepLockedNoted (executor : Executor) (input : RunInput) (flag number index : Nat)
    (step : Step) : Program (World × List Note) Mishap Json := do
  unnoted (World.lock number flag)
  let result ← (takeStepNoted executor input flag number index step).attempt
  unnoted (.modify (·.unlock flag))
  .ofExcept result

/-- Takes the steps that are left, as `takeSteps` does, and takes notes. -/
def takeStepsNoted (executor : Executor) (input : RunInput) (flag number : Nat) (taken : Nat)
    (outputs : KeyMap Json) : List Step → Program (World × List Note) Mishap Summary
  | [] => return ⟨input.run, .completed, taken, outputs⟩
  | step :: rest => do
    let raised := (← .get).1.flagged flag
    note [.step taken (.checked raised)]
    if raised then
      unnoted (World.report (.runCancelled input.run step.label))
      return ⟨input.run, .cancelled, taken, outputs⟩
    else
      let output ← takeStepLockedNoted executor input flag number taken step
      takeStepsNoted executor input flag number (taken + 1)
        (outputs.insert step.output.key output) rest

/-- What a run with a context does when its steps have ended. -/
def wrapUp (input : RunInput) (result : Except Mishap Summary) :
    Program World Failure Summary := do
  let _ ← Registry.discard input.run
  match result with
  | .ok summary =>
    World.report (.runFinished input.run summary.status.shown summary.stepsCompleted)
    return summary
  | .error (mishap : Mishap) =>
    let failure := mishap.toFailure input.run
    World.report (.runFailed input.run failure.headline)
    .fail failure

/-- A run with a context takes its steps and wraps up. -/
theorem finish_eq (executor : Executor) (input : RunInput) (flag number : Nat) :
    finish executor input flag number =
      ((takeSteps executor input flag number 0 ∅ input.workflow.steps).attempt >>=
        input.wrapUp) := rfl

/-- What is noted of the opening of a context. -/
def openingNotes : Except Failure Nat → List Note
  | .ok number => [.opened number]
  | .error _ => []

/-- Performs a run, as `perform` does, and takes notes. -/
def performNoted (executor : Executor) (input : RunInput) (flag : Nat) :
    Program (World × List Note) Failure Summary := do
  let declarations ← .ofExcept
    ((input.workflow.declarations input.inputs).mapError Failure.ofReport)
  unnoted (World.report
    (.runStarting input.run input.organization.id input.workflow.steps.length))
  let number ← (input.openContext declarations).noted openingNotes
  let result ← (takeStepsNoted executor input flag number 0 ∅ input.workflow.steps).attempt
  unnoted (input.wrapUp result)

/-! ## Forgetting them -/

/-- A step that notes are taken of is taken as without. -/
theorem forgets_takeStep (index : Nat) (step : Step) :
    (takeStepNoted executor input flag number index step).Forgets
      (takeStep executor input flag number step) := by
  refine (forgets_noted _ _).bind fun _ => Forgets.note_bind ?_ _
  refine (forgets_noted _ _).bind fun output => (forgets_noted _ _).bind fun _ => ?_
  exact forgets_ofExcept (.ok output)

/-- A step that is taken with the context locked, and that notes are taken of, is taken as without
notes. -/
theorem forgets_takeStepLocked (index : Nat) (step : Step) :
    (takeStepLockedNoted executor input flag number index step).Forgets
      (takeStepLocked executor input flag number step) := by
  refine (forgets_unnoted _).bind fun _ => ?_
  refine (forgets_takeStep index step).attempt.bind fun result => ?_
  exact (forgets_unnoted _).bind fun _ => forgets_ofExcept result

/-- The steps that notes are taken of are taken as without. -/
theorem forgets_takeSteps (taken : Nat) (outputs : KeyMap Json) (steps : List Step) :
    (takeStepsNoted executor input flag number taken outputs steps).Forgets
      (takeSteps executor input flag number taken outputs steps) := by
  -- The induction is on the steps; the notes differ from the plain run in what is written down
  -- only.
  induction steps generalizing taken outputs with
  | nil => exact forgets_ofExcept _
  | cons step rest ih =>
    refine forgets_get_bind fun d => Forgets.note_bind ?_ _
    -- Whether the run is asked to stop is noted, and then both go the same way.
    cases d.1.flagged flag with
    | true => exact (forgets_unnoted _).bind fun _ => forgets_ofExcept _
    | false =>
      exact (forgets_takeStepLocked taken step).bind fun output =>
        ih (taken + 1) (outputs.insert step.output.key output)

/-- A run that takes notes is, when they are forgotten, the run itself. -/
theorem forgets_perform (executor : Executor) (input : RunInput) (flag : Nat) :
    (performNoted executor input flag).Forgets (input.perform executor flag) := by
  rw [perform_eq]
  refine (forgets_ofExcept _).bind fun declarations => (forgets_unnoted _).bind fun _ => ?_
  refine (forgets_noted _ _).bind fun number => ?_
  rw [finish_eq]
  exact (forgets_takeSteps 0 ∅ input.workflow.steps).attempt.bind fun result => forgets_unnoted _

/-! ## The stories that notes tell -/

/-- What is noted of an attempt to take a step, and what comes of it. -/
inductive Attempt (index : Nat) (step : Step) : List Note → Except Mishap Json → Prop
  | unregistered (mishap : Mishap) :
    Attempt index step [.step index (.registered (.error mishap))] (.error mishap)
  | broken (mishap : Mishap) :
    Attempt index step [.step index (.registered (.ok ())), .step index (.called step),
      .step index (.returned (.error mishap))] (.error mishap)
  | unrecorded (output : Json) (mishap : Mishap) :
    Attempt index step [.step index (.registered (.ok ())), .step index (.called step),
      .step index (.returned (.ok output)), .step index (.recorded (.error mishap))] (.error mishap)
  | taken (output : Json) :
    Attempt index step [.step index (.registered (.ok ())), .step index (.called step),
      .step index (.returned (.ok output)), .step index (.recorded (.ok ()))] (.ok output)

/-- What is noted from some step on until no step is left or none is taken any more, and what comes
of the steps. -/
inductive Story (run : String) :
    Nat → KeyMap Json → List Step → List Note → Except Mishap Summary → Prop
  | completed (index : Nat) (outputs : KeyMap Json) :
    Story run index outputs [] [] (.ok ⟨run, .completed, index, outputs⟩)
  | cancelled (index : Nat) (outputs : KeyMap Json) (step : Step) (rest : List Step) :
    Story run index outputs (step :: rest) [.step index (.checked true)]
      (.ok ⟨run, .cancelled, index, outputs⟩)
  | failed {index : Nat} {step : Step} {tried : List Note} {mishap : Mishap}
    (attempt : Attempt index step tried (.error mishap)) (outputs : KeyMap Json)
    (rest : List Step) :
    Story run index outputs (step :: rest) (.step index (.checked false) :: tried) (.error mishap)
  | taken {index : Nat} {step : Step} {tried later : List Note} {output : Json}
    {outputs : KeyMap Json} {rest : List Step} {r : Except Mishap Summary}
    (attempt : Attempt index step tried (.ok output))
    (onward : Story run (index + 1) (outputs.insert step.output.key output) rest later r) :
    Story run index outputs (step :: rest) (.step index (.checked false) :: tried ++ later) r

/-- Notes that are what an attempt begins with. -/
def Tried (index : Nat) (step : Step) (earlier notes : List Note) : Prop :=
  ∃ tried r, Attempt index step tried r ∧ notes <+: earlier ++ tried

/-- An attempt that goes on has begun. -/
theorem Attempt.tried {index : Nat} {step : Step} {tried later earlier notes : List Note}
    {r : Except Mishap Json} (h : Attempt index step tried r) (begun : List Note)
    (hnotes : notes = earlier ++ begun) (htried : tried = begun ++ later) :
    Tried index step earlier notes := by
  refine ⟨tried, r, h, ?_⟩
  rw [hnotes, htried]
  exact (List.prefix_append_right_inj earlier).mpr (List.prefix_append begun later)

/-- The notes of taking a step are those of an attempt. -/
theorem tells_takeStep (index : Nat) (step : Step) (d : World × List Note) :
    (takeStepNoted executor input flag number index step d).Tells (Tried index step d.2)
      fun notes r => ∃ tried, Attempt index step tried r ∧ notes = d.2 ++ tried := by
  -- While a part of the step is under way, an attempt that goes on as it may has begun.
  refine Tells.bind ((tells_noted _ _ d).mono ?_ fun _ _ h => h) ?_ ?_
  · -- The three parts of a step are told in turn. Notes taken while one is under way are the front
    -- of an attempt that could still go this way: here of one whose parameters are not registered.
    rintro notes rfl
    exact (Attempt.unregistered default).tried [] (List.append_nil _).symm rfl
  · rintro _ d₁ hregistered
    refine tells_note_bind (Tells.bind ((tells_noted _ _ _).mono ?_ fun _ _ h => h) ?_ ?_)
    · rintro notes rfl
      refine (Attempt.broken default).tried
        [.step index (.registered (.ok ())), .step index (.called step)] ?_ rfl
      rw [hregistered, List.append_assoc]
      rfl
    · -- The executor has returned an output; what is under way now is the recording.
      intro output d₂ hreturned
      refine Tells.bind ((tells_noted _ _ _).mono ?_ fun _ _ h => h) ?_ ?_
      · rintro notes rfl
        refine (Attempt.taken output).tried
          [.step index (.registered (.ok ())), .step index (.called step),
            .step index (.returned (.ok output))] ?_ rfl
        rw [hreturned, hregistered, List.append_assoc, List.append_assoc]
        rfl
      · -- All notes of the attempt are there, in the order in which they were taken.
        rintro _ d₃ hrecorded
        refine ⟨_, .taken output, ?_⟩
        rw [hrecorded, hreturned, hregistered]
        simp only [List.append_assoc]
        rfl
      · -- The output could not be recorded.
        rintro notes mishap hrecorded
        refine ⟨_, .unrecorded output mishap, ?_⟩
        rw [hrecorded, hreturned, hregistered]
        simp only [List.append_assoc]
        rfl
    · -- The executor has failed, so nothing is recorded.
      rintro notes mishap hreturned
      refine ⟨_, .broken mishap, ?_⟩
      rw [hreturned, hregistered]
      simp only [List.append_assoc]
      rfl
  · -- The parameters could not be registered, so the executor is not called.
    rintro notes mishap hregistered
    exact ⟨_, .unregistered mishap, hregistered⟩

/-- The notes of taking a step with the context locked are those of an attempt. Waiting for the lock
and giving it up adds none. -/
theorem tells_takeStepLocked (index : Nat) (step : Step) (d : World × List Note) :
    (takeStepLockedNoted executor input flag number index step d).Tells (Tried index step d.2)
      fun notes r => ∃ tried, Attempt index step tried r ∧ notes = d.2 ++ tried := by
  have hlock : ((unnoted (World.lock number flag) :
      Program (World × List Note) Mishap Unit) d).Tells (Tried index step d.2)
        fun notes r => notes = d.2 ∧ r = .ok () :=
    ⟨(Attempt.unregistered default).tried [] (List.append_nil _).symm rfl, fun _ => ⟨rfl, rfl⟩⟩
  refine hlock.bind ?_ ?_
  · -- The lock is not noted.
    rintro _ d₁ ⟨hsame, -⟩
    rw [← hsame]
    refine (tells_takeStep index step d₁).attempt.bind ?_ ?_
    · rintro _ d₂ ⟨r, hr, htried⟩
      cases hr
      exact htried
    · rintro notes e ⟨r, hr, -⟩
      cases hr
  · rintro notes e ⟨-, hr⟩
    cases hr

/-- Notes that are what a story begins with. -/
def Begun (run : String) (index : Nat) (outputs : KeyMap Json) (steps : List Step)
    (earlier notes : List Note) : Prop :=
  ∃ story r, Story run index outputs steps story r ∧ notes <+: earlier ++ story

/-- An attempt that has begun is the beginning of a story. -/
theorem Tried.begun {run : String} {index : Nat} {step : Step} {earlier notes : List Note}
    (h : Tried index step (earlier ++ [.step index (.checked false)]) notes)
    (outputs : KeyMap Json) (rest : List Step) :
    Begun run index outputs (step :: rest) earlier notes := by
  obtain ⟨tried, r, hattempt, hprefix⟩ := h
  rw [List.append_assoc] at hprefix
  -- An attempt that fails ends the story, and one that succeeds needs a rest to be told.
  cases r with
  | error mishap => exact ⟨_, _, .failed hattempt outputs rest, hprefix⟩
  | ok output =>
    -- Some story goes on from here: nothing is left, or the run is asked to stop.
    obtain ⟨later, r, hlater⟩ : ∃ later r, Story run (index + 1)
        (outputs.insert step.output.key output) rest later r := by
      cases rest with
      | nil => exact ⟨_, _, .completed _ _⟩
      | cons next rest => exact ⟨_, _, .cancelled _ _ next rest⟩
    refine ⟨_, r, .taken hattempt hlater, hprefix.trans ?_⟩
    exact (List.prefix_append_right_inj earlier).mpr (List.prefix_append _ later)

/-- The notes of the steps that are left are a story. -/
theorem tells_takeSteps (index : Nat) (outputs : KeyMap Json) (steps : List Step)
    (d : World × List Note) :
    (takeStepsNoted executor input flag number index outputs steps d).Tells
      (Begun input.run index outputs steps d.2)
      fun notes r => ∃ story, Story input.run index outputs steps story r ∧
        notes = d.2 ++ story := by
  -- The induction is on the steps to be told; what was noted before is the front of all that
  -- follows.
  induction steps generalizing index outputs d with
  | nil => exact ⟨[], .completed index outputs, (List.append_nil _).symm⟩
  | cons step rest ih =>
    show Tells _ _ ((note [.step index (.checked (d.1.flagged flag))] >>= fun _ => _) d)
    refine tells_note_bind ?_
    cases d.1.flagged flag with
    -- A run that is asked to stop tells so, and nothing after it.
    | true => exact ⟨_, .cancelled index outputs step rest, rfl⟩
    | false =>
      refine ((tells_takeStepLocked index step _).mono (fun notes h => h.begun outputs rest)
        fun _ _ h => h).bind ?_ ?_
      · -- The step was taken, so the story goes on with the rest.
        rintro output d₁ ⟨tried, hattempt, htried⟩
        -- What the rest tells, or has begun to tell, follows on the attempt.
        refine (ih (index + 1) (outputs.insert step.output.key output) d₁).mono ?_ ?_
        · rintro notes ⟨story, r, hstory, hprefix⟩
          refine ⟨_, r, .taken hattempt hstory, ?_⟩
          rw [htried] at hprefix
          simp only [List.append_assoc] at hprefix
          exact hprefix
        · rintro notes r ⟨story, hstory, hnotes⟩
          refine ⟨_, .taken hattempt hstory, ?_⟩
          rw [hnotes, htried]
          simp only [List.append_assoc]
          rfl
      · -- The step failed, so the story ends with it.
        rintro notes mishap ⟨tried, hattempt, htried⟩
        refine ⟨_, .failed hattempt outputs rest, ?_⟩
        rw [htried, List.append_assoc]
        rfl

/-- Wrapping a run up takes no notes and passes on what came of the steps. -/
theorem tells_wrapUp (result : Except Mishap Summary) (d : World × List Note) :
    (unnoted (input.wrapUp result) d).Tells (fun notes => notes = d.2)
      fun notes r => notes = d.2 ∧ r = result.mapError (Mishap.toFailure input.run) := by
  cases result with
  | ok summary => exact ⟨rfl, fun _ => ⟨rfl, rfl⟩⟩
  | error mishap => exact ⟨rfl, fun _ => ⟨rfl, rfl⟩⟩

/-- There are no notes of a run unless its context has been opened. Then they tell a story, or what
a story begins with if the run has not ended yet. -/
theorem tells_perform (executor : Executor) (input : RunInput) (flag : Nat) (w : World) :
    (performNoted executor input flag (w, [])).Tells
      (fun notes => notes = [] ∨ ∃ number,
        Begun input.run 0 ∅ input.workflow.steps [.opened number] notes)
      fun notes r => (notes = [] ∧ ∃ failure, r = .error failure) ∨
        ∃ number story result, Story input.run 0 ∅ input.workflow.steps story result ∧
          notes = .opened number :: story ∧
          r = result.mapError (Mishap.toFailure input.run) := by
  unfold performNoted
  show Tells _ _ ((Program.ofExcept _ _).bind _)
  -- Without declarations nothing is noted.
  cases input.workflow.declarations input.inputs with
  | error report => exact .inl ⟨rfl, _, rfl⟩
  | ok declarations =>
    let started : World × List Note := (w.logged
      [.runStarting input.run input.organization.id input.workflow.steps.length], [])
    have hopening := tells_noted openingNotes (input.openContext declarations) started
    -- While the context is being opened nothing is noted either.
    refine (hopening.mono (fun _ => Or.inl) fun _ _ h => h).bind ?_ ?_
    · -- The context is open, and the steps are told from there.
      intro number d hopened
      have hopened : d.2 = [.opened number] := hopened
      refine Tells.bind ((tells_takeSteps 0 ∅ input.workflow.steps d).attempt.mono ?_
        fun _ _ h => h) ?_ ?_
      · rintro notes hbegun
        rw [hopened] at hbegun
        exact .inr ⟨number, hbegun⟩
      · -- The steps are over. What follows is not noted, so the story is whole.
        rintro result d' ⟨r, hr, story, hstory, hnotes⟩
        cases hr
        rw [hopened] at hnotes
        refine (tells_wrapUp result d').mono ?_ ?_
        · rintro notes rfl
          exact .inr ⟨number, story, result, hstory, hnotes ▸ List.prefix_refl _⟩
        · rintro notes r ⟨rfl, hr⟩
          exact .inr ⟨number, story, result, hstory, hnotes, hr⟩
      · rintro notes e ⟨r, hr, -⟩
        cases hr
    · -- The context could not be opened.
      rintro notes failure hnone
      exact .inl ⟨hnone, failure, rfl⟩

end RunInput

end RunParams
