import RunParams.Lookup.Memory
import RunParams.Proofs.Run.Notes

/-!
# What the notes of a run account for

The notes of a run tell a story (`RunInput.Story`). From the story alone follows in which order the
run has done things: the executor has been called on the first steps in their order, each time after
the parameters of the step were registered and the outputs of all earlier steps recorded, and never
on a step before which the run saw that it should stop, or on a later one (`RunInput.Orderly`). As
each of these is said of what stands before a note, it holds at every moment of a run.

And what a run returns is told by its notes: whether it has completed, at which step it was stopped
or has failed, and which outputs it has (`RunInput.SumsUp`). A story has one of three verdicts
(`RunInput.Verdict`), and all that is said of the result follows from that.

`RunInput.perform_accounts` puts both together. What the notes have to do with the world is another
matter: that the calls that are noted are those that are made, each with the context as the noted
registration has left it, is shown in `RunParams.Proofs.Run.Calls`.
-/

namespace RunParams.RunInput

open Program Paused

variable {run : String} {input : RunInput} {index first last : Nat} {step : Step}
  {steps : List Step} {outputs : KeyMap Json} {notes earlier story tried : List Note}

/-! ## What is noted of a step -/

/-- A step has been taken: its parameters have been registered, the executor has returned an output,
and it has been recorded. -/
def Passed (notes : List Note) (index : Nat) : Prop :=
  .step index (.registered (.ok ())) ∈ notes ∧
    (∃ output, .step index (.returned (.ok output)) ∈ notes) ∧
    .step index (.recorded (.ok ())) ∈ notes

/-- Before a step the run has seen that it should stop. -/
def Flagged (notes : List Note) (index : Nat) : Prop := .step index (.checked true) ∈ notes

/-- The executor has been called on a step. -/
def Called (notes : List Note) (index : Nat) (step : Step) : Prop :=
  .step index (.called step) ∈ notes

/-- Something has gone wrong in a step. -/
def Fails (notes : List Note) (index : Nat) (mishap : Mishap) : Prop :=
  .step index (.registered (.error mishap)) ∈ notes ∨
    .step index (.returned (.error mishap)) ∈ notes ∨
    .step index (.recorded (.error mishap)) ∈ notes

/-- The step and the index of a call. -/
def call? : Note → Option (Step × Nat)
  | .step index (.called step) => some (step, index)
  | _ => none

/-- The last of the executed steps whose output goes to a key had a certain output. -/
def Yields (notes : List Note) (key : String) (value : Json) : Prop :=
  ∃ index step, Called notes index step ∧ step.output.key = key ∧
    .step index (.returned (.ok value)) ∈ notes ∧
    ∀ later step', Called notes later step' → index < later → step'.output.key ≠ key

/-- The notes of a run with some steps stand in the right order. -/
structure Orderly (steps : List Step) (notes : List Note) : Prop where
  /-- The executor is called on the first steps, in their order and once on each. -/
  calls : notes.filterMap call? <+: steps.zipIdx
  /-- Each call comes after the registration of the parameters of the step. -/
  registered : ∀ before index step after, notes = before ++ .step index (.called step) :: after →
    .step index (.registered (.ok ())) ∈ before
  /-- It comes after the recording of all earlier outputs. -/
  recorded : ∀ before index step after, notes = before ++ .step index (.called step) :: after →
    ∀ previous, previous < index → .step previous (.recorded (.ok ())) ∈ before
  /-- There is none on a step before which the run should stop, or on a later one. -/
  unflagged : ∀ index step stopped, Called notes index step → Flagged notes stopped →
    index < stopped

/-- The result of a run is what its notes come to. -/
structure SumsUp (input : RunInput) (notes : List Note) (r : Except Failure Summary) : Prop where
  /-- It has completed just when all steps were taken and it never saw that it should stop. -/
  completed : (∃ s, r = .ok s ∧ s.status = .completed ∧
      s.stepsCompleted = input.workflow.steps.length) ↔
    (∀ index, index < input.workflow.steps.length → Passed notes index) ∧
      ∀ index, ¬ Flagged notes index
  /-- It was stopped just when it saw so before a step, after it had taken all earlier ones. -/
  cancelled : ∀ index, (∃ s, r = .ok s ∧ s.status = .cancelled ∧ s.stepsCompleted = index) ↔
    index < input.workflow.steps.length ∧ (∀ previous, previous < index → Passed notes previous) ∧
      Flagged notes index
  /-- It has failed just when something went wrong in a step, after it had taken all earlier ones.
  -/
  failed : ∀ failure, r = .error failure ↔
    ∃ index mishap, index < input.workflow.steps.length ∧
      (∀ previous, previous < index → Passed notes previous) ∧ Fails notes index mishap ∧
      failure = mishap.toFailure input.run
  /-- There is no other way to complete. -/
  steps : ∀ s, r = .ok s → s.status = .completed → s.stepsCompleted = input.workflow.steps.length
  /-- It has the last output for each key of an executed step, and nothing else. -/
  outputs : ∀ s, r = .ok s → ∀ key value, s.outputs.get? key = some value ↔ Yields notes key value

/-! ## The verdict of a story -/

/-- What comes of the steps from one index to another, and what is noted of it. -/
inductive Verdict (run : String) (first last : Nat) (notes : List Note) :
    Except Mishap Summary → Prop
  | completed (outputs : KeyMap Json)
    (passed : ∀ index, Passed notes index ↔ first ≤ index ∧ index < last)
    (unflagged : ∀ index, ¬ Flagged notes index)
    (sound : ∀ index mishap, ¬ Fails notes index mishap) :
    Verdict run first last notes (.ok ⟨run, .completed, last, outputs⟩)
  | cancelled (reached : Nat) (outputs : KeyMap Json) (within : first ≤ reached ∧ reached < last)
    (passed : ∀ index, Passed notes index ↔ first ≤ index ∧ index < reached)
    (flagged : ∀ index, Flagged notes index ↔ index = reached)
    (sound : ∀ index mishap, ¬ Fails notes index mishap)
    (called : ∀ index step, Called notes index step → index < reached) :
    Verdict run first last notes (.ok ⟨run, .cancelled, reached, outputs⟩)
  | failed (reached : Nat) (mishap : Mishap) (within : first ≤ reached ∧ reached < last)
    (passed : ∀ index, Passed notes index ↔ first ≤ index ∧ index < reached)
    (unflagged : ∀ index, ¬ Flagged notes index)
    (fails : ∀ index mishap', Fails notes index mishap' ↔ index = reached ∧ mishap' = mishap) :
    Verdict run first last notes (.error mishap)

/-- What goes wrong in an attempt. -/
theorem Attempt.verdict {mishap : Mishap} (h : Attempt first step tried (.error mishap))
    (hlast : first < last) :
    Verdict run first last (.step first (.checked false) :: tried) (.error mishap) := by
  -- The three ways to fail differ in what was done before, but in none of them the step has passed.
  cases h with
  | unregistered =>
    refine .failed first mishap ⟨Nat.le_refl _, hlast⟩ ?_ ?_ ?_ <;> simp [Passed, Flagged, Fails]
  | broken =>
    refine .failed first mishap ⟨Nat.le_refl _, hlast⟩ ?_ ?_ ?_ <;> simp [Passed, Flagged, Fails]
  | unrecorded output =>
    refine .failed first mishap ⟨Nat.le_refl _, hlast⟩ ?_ ?_ ?_ <;> simp [Passed, Flagged, Fails]

section Taken

variable {output : Json} {later : List Note} {mishap : Mishap} {called : Step}

/-- A step that is taken has passed. -/
theorem Attempt.passed_iff (h : Attempt first step tried (.ok output)) :
    Passed (.step first (.checked false) :: tried ++ later) index ↔
      index = first ∨ Passed later index := by
  cases h
  -- For the step itself its notes decide; for any other index they do not count.
  by_cases hindex : index = first <;> simp [Passed, hindex]

/-- Before a step that is taken the run has not seen that it should stop. -/
theorem Attempt.flagged_iff (h : Attempt first step tried (.ok output)) :
    Flagged (.step first (.checked false) :: tried ++ later) index ↔ Flagged later index := by
  cases h
  simp [Flagged]

/-- Nothing has gone wrong in a step that is taken. -/
theorem Attempt.fails_iff (h : Attempt first step tried (.ok output)) :
    Fails (.step first (.checked false) :: tried ++ later) index mishap ↔
      Fails later index mishap := by
  cases h
  simp [Fails]

/-- The executor has been called on a step that is taken. -/
theorem Attempt.called_iff (h : Attempt first step tried (.ok output)) :
    Called (.step first (.checked false) :: tried ++ later) index called ↔
      index = first ∧ called = step ∨ Called later index called := by
  cases h
  simp [Called]

/-- The output of a step that is taken is what the executor has returned. -/
theorem Attempt.returned_iff (h : Attempt first step tried (.ok output)) {value : Json} :
    Note.step index (.returned (.ok value)) ∈ .step first (.checked false) :: tried ++ later ↔
      index = first ∧ value = output ∨ .step index (.returned (.ok value)) ∈ later := by
  cases h
  simp

end Taken

/-- Every story has a verdict. -/
theorem Story.verdict {r : Except Mishap Summary} (h : Story run first outputs steps story r) :
    Verdict run first (first + steps.length) story r := by
  induction h with
  | completed index outputs =>
    refine .completed outputs ?_ ?_ ?_ <;> simp [Passed, Flagged, Fails]
  | cancelled index outputs step rest =>
    have hnext : index < index + (step :: rest).length :=
      Nat.lt_add_of_pos_right rest.length.succ_pos
    refine .cancelled index outputs ⟨Nat.le_refl _, hnext⟩ ?_ ?_ ?_ ?_ <;>
      simp [Passed, Flagged, Fails, Called]
  | failed attempt outputs rest =>
    exact attempt.verdict (Nat.lt_add_of_pos_right rest.length.succ_pos)
  | @taken index step tried later output outputs rest r attempt onward ih =>
    -- The verdict on the later steps stands; this step has passed before them.
    have hpassed : ∀ reached, index + 1 ≤ reached →
        (∀ i, Passed later i ↔ index + 1 ≤ i ∧ i < reached) →
        ∀ i, Passed (.step index (.checked false) :: tried ++ later) i ↔
          index ≤ i ∧ i < reached := by
      intro reached hreached hlater i
      rw [attempt.passed_iff, hlater]
      omega
    rw [show index + (step :: rest).length = index + 1 + rest.length by
      rw [List.length_cons, Nat.add_right_comm, Nat.add_assoc]]
    cases ih with
    | completed outputs passed unflagged sound =>
      -- A verdict is only moved to the front by one step, which changes nothing but what has
      -- passed.
      refine .completed outputs (hpassed _ (Nat.le_add_right ..) passed) (fun i => ?_)
        fun i mishap => ?_
      · rw [attempt.flagged_iff]
        exact unflagged i
      · rw [attempt.fails_iff]
        exact sound i mishap
    | cancelled reached outputs within passed flagged sound called =>
      -- The run is stopped at the same step, and the one before it has been called as well.
      refine .cancelled reached outputs ⟨Nat.le_of_succ_le within.1, within.2⟩
        (hpassed reached within.1 passed) (fun i => ?_) (fun i mishap => ?_)
        fun i called' hcalled => ?_
      · rw [attempt.flagged_iff]
        exact flagged i
      · rw [attempt.fails_iff]
        exact sound i mishap
      · rcases attempt.called_iff.mp hcalled with ⟨rfl, -⟩ | hlater
        · exact within.1
        · exact called i called' hlater
    | failed reached mishap within passed unflagged fails =>
      -- Likewise it fails at the same step.
      refine .failed reached mishap ⟨Nat.le_of_succ_le within.1, within.2⟩
        (hpassed reached within.1 passed) (fun i => ?_) fun i mishap' => ?_
      · rw [attempt.flagged_iff]
        exact unflagged i
      · rw [attempt.fails_iff]
        exact fails i mishap'

/-- What happens in an attempt happens in its step. -/
theorem Attempt.index_eq {what : StepNote} {r : Except Mishap Json}
    (h : Attempt first step tried r) (hmem : .step index what ∈ tried) : index = first := by
  -- All notes of an attempt carry the index of its step.
  have hall : ∀ x ∈ tried, ∃ what, x = .step first what := by
    cases h <;> simp
  obtain ⟨_, hsame⟩ := hall _ hmem
  cases hsame
  rfl

/-- What happens in the steps that are left happens at their indices. -/
theorem Story.le_of_mem {what : StepNote} {r : Except Mishap Summary}
    (h : Story run first outputs steps story r) (hmem : .step index what ∈ story) :
    first ≤ index := by
  induction h with
  | completed => cases hmem
  | cancelled =>
    cases List.mem_singleton.mp hmem
    exact Nat.le_refl _
  | failed attempt outputs rest =>
    -- A note is one of the first step, at its index, or one of a later step, at a greater index.
    rcases List.mem_cons.mp hmem with hsame | htried
    · cases hsame
      exact Nat.le_refl _
    · exact Nat.le_of_eq (attempt.index_eq htried).symm
  | taken attempt onward ih =>
    rcases List.mem_append.mp hmem with hstep | hlater
    · rcases List.mem_cons.mp hstep with hsame | htried
      · cases hsame
        exact Nat.le_refl _
      · exact Nat.le_of_eq (attempt.index_eq htried).symm
    · exact Nat.le_of_succ_le (ih hlater)

/-! ## The outputs -/

/-- No executed step has its output under a key. -/
def Untouched (notes : List Note) (key : String) : Prop :=
  ∀ index step, Called notes index step → step.output.key ≠ key

section Taken

variable {output : Json} {later : List Note} {key : String} {value : Json}

/-- A step that is taken touches the key of its output. -/
theorem Attempt.untouched_iff (h : Attempt first step tried (.ok output)) :
    Untouched (.step first (.checked false) :: tried ++ later) key ↔
      step.output.key ≠ key ∧ Untouched later key := by
  constructor
  · intro hall
    -- The step itself is among those that are called, so it must not have the key either.
    refine ⟨hall first step (h.called_iff.mpr (.inl ⟨rfl, rfl⟩)), fun index called hcalled => ?_⟩
    exact hall index called (h.called_iff.mpr (.inr hcalled))
  · rintro ⟨hstep, hlater⟩ index called hcalled
    rcases h.called_iff.mp hcalled with ⟨-, rfl⟩ | hcalled
    · exact hstep
    · exact hlater index called hcalled

/-- The output of a step that is taken counts unless a later step has one for the key. -/
theorem Attempt.yields_iff (h : Attempt first step tried (.ok output))
    (hlater : ∀ index what, .step index what ∈ later → first < index) :
    Yields (.step first (.checked false) :: tried ++ later) key value ↔
      Yields later key value ∨ step.output.key = key ∧ value = output ∧ Untouched later key := by
  constructor
  · -- The step that yields is this one or a later one. Notes of later steps have greater indices,
    -- which rules out that the call and the return belong to different steps.
    rintro ⟨index, called, hcalled, hkey, hreturned, hlast⟩
    have hafter : ∀ index' called', Called later index' called' → index < index' →
        called'.output.key ≠ key :=
      fun index' called' hcalled' => hlast index' called' (h.called_iff.mpr (.inr hcalled'))
    rcases h.called_iff.mp hcalled with ⟨rfl, rfl⟩ | hin
    · rcases h.returned_iff.mp hreturned with ⟨-, rfl⟩ | hreturned
      · refine .inr ⟨hkey, rfl, fun index' called' hcalled' => ?_⟩
        exact hafter index' called' hcalled' (hlater _ _ hcalled')
      · exact absurd (hlater _ _ hreturned) (Nat.lt_irrefl _)
    · rcases h.returned_iff.mp hreturned with ⟨rfl, -⟩ | hreturned
      · exact absurd (hlater _ _ hin) (Nat.lt_irrefl _)
      · exact .inl ⟨index, called, hin, hkey, hreturned, hafter⟩
  · rintro (⟨index, called, hcalled, hkey, hreturned, hlast⟩ | ⟨hkey, rfl, huntouched⟩)
    · -- A later step that yields still does, as this one comes before it.
      refine ⟨index, called, h.called_iff.mpr (.inr hcalled), hkey,
        h.returned_iff.mpr (.inr hreturned), fun index' called' hcalled' hless => ?_⟩
      rcases h.called_iff.mp hcalled' with ⟨rfl, rfl⟩ | hcalled'
      · exact absurd (hlater _ _ hcalled) (Nat.not_lt_of_lt hless)
      · exact hlast index' called' hcalled' hless
    · -- This step yields unless a later one has the key.
      refine ⟨first, step, h.called_iff.mpr (.inl ⟨rfl, rfl⟩), hkey,
        h.returned_iff.mpr (.inl ⟨rfl, rfl⟩), fun index' called' hcalled' hless => ?_⟩
      rcases h.called_iff.mp hcalled' with ⟨rfl, rfl⟩ | hcalled'
      · exact absurd hless (Nat.lt_irrefl _)
      · exact huntouched index' called' hcalled'

end Taken

/-- The outputs of a story are those that it yields, and those from before that it leaves alone. -/
theorem Story.outputs_iff {s : Summary} (h : Story run first outputs steps story (.ok s))
    (key : String) (value : Json) :
    s.outputs.get? key = some value ↔
      Yields story key value ∨ outputs.get? key = some value ∧ Untouched story key := by
  generalize hr : (.ok s : Except Mishap Summary) = r at h
  induction h with
  | completed index outputs =>
    cases hr
    simp [Yields, Untouched, Called]
  | cancelled index outputs step rest =>
    cases hr
    simp [Yields, Untouched, Called]
  | failed => cases hr
  | @taken index step tried later output outputs rest r attempt onward ih =>
    -- What was under the key of this step before is covered by its output.
    rw [ih hr, attempt.yields_iff fun _ _ hmem => onward.le_of_mem hmem, attempt.untouched_iff,
      KeyMap.get?_insert]
    -- Only the key of the step makes a difference: an older output there is no longer seen.
    by_cases hkey : key = step.output.key
    · subst hkey
      simp [eq_comm]
    · simp [hkey, Ne.symm hkey]

/-- The result of a run is what its story comes to. -/
theorem Story.sumsUp {r : Except Mishap Summary}
    (h : Story input.run 0 ∅ input.workflow.steps story r) :
    SumsUp input story (r.mapError (Mishap.toFailure input.run)) := by
  have houtputs : ∀ s, r.mapError (Mishap.toFailure input.run) = .ok s → ∀ key value,
      s.outputs.get? key = some value ↔ Yields story key value := by
    intro s hs key value
    -- A run that fails has no outputs to speak of.
    cases r with
    | error mishap => cases hs
    | ok s' =>
      cases hs
      rw [h.outputs_iff]
      exact ⟨fun hor => hor.resolve_right fun hold => (nomatch hold.1), .inl⟩
  -- Each verdict makes one of the three true and refutes the two others.
  have hverdict := h.verdict
  rw [Nat.zero_add] at hverdict
  cases hverdict with
  | completed outputs passed unflagged sound =>
    -- It has completed: no step has seen the flag, and none has failed.
    refine ⟨?_, fun index => ?_, fun failure => ?_, fun s hs _ => ?_, houtputs⟩
    · exact ⟨fun _ => ⟨fun index hindex => (passed index).mpr ⟨Nat.zero_le _, hindex⟩, unflagged⟩,
        fun _ => ⟨_, rfl, rfl, rfl⟩⟩
    · refine ⟨?_, fun ⟨_, _, hflagged⟩ => absurd hflagged (unflagged index)⟩
      rintro ⟨s, hs, hstatus, -⟩
      cases hs
      cases hstatus
    · exact ⟨nofun, fun ⟨index, mishap, _, _, hfails, _⟩ => absurd hfails (sound index mishap)⟩
    · cases hs
      rfl
  | cancelled reached outputs within passed flagged sound called =>
    -- It was stopped at one step, so this one has not passed and none has failed.
    refine ⟨?_, fun index => ?_, fun failure => ?_, fun s hs hstatus => ?_, houtputs⟩
    · refine ⟨?_, fun ⟨_, hnone⟩ => absurd ((flagged reached).mpr rfl) (hnone reached)⟩
      rintro ⟨s, hs, hstatus, -⟩
      cases hs
      cases hstatus
    · constructor
      · rintro ⟨s, hs, -, rfl⟩
        cases hs
        exact ⟨within.2, fun previous hless => (passed previous).mpr ⟨Nat.zero_le _, hless⟩,
          (flagged reached).mpr rfl⟩
      · rintro ⟨-, -, hflagged⟩
        cases (flagged index).mp hflagged
        exact ⟨_, rfl, rfl, rfl⟩
    · exact ⟨nofun, fun ⟨index, mishap, _, _, hfails, _⟩ => absurd hfails (sound index mishap)⟩
    · cases hs
      cases hstatus
  | failed reached mishap within passed unflagged fails =>
    -- It has failed at one step, so this one has not passed and none has seen the flag.
    refine ⟨?_, fun index => ?_, fun failure => ?_, nofun, houtputs⟩
    · refine ⟨nofun, fun ⟨hall, _⟩ => ?_⟩
      exact absurd ((passed reached).mp (hall reached within.2)).2 (Nat.lt_irrefl _)
    · exact ⟨nofun, fun ⟨_, _, hflagged⟩ => absurd hflagged (unflagged index)⟩
    · constructor
      · intro hfailure
        cases hfailure
        exact ⟨reached, mishap, within.2,
          fun previous hless => (passed previous).mpr ⟨Nat.zero_le _, hless⟩,
          (fails reached mishap).mpr ⟨rfl, rfl⟩, rfl⟩
      · rintro ⟨index, mishap', -, -, hfails, rfl⟩
        obtain ⟨rfl, rfl⟩ := (fails index mishap').mp hfails
        rfl

/-- The opening of the context is no matter of a step. -/
theorem SumsUp.opened {r : Except Failure Summary} (h : SumsUp input story r) (number : Nat) :
    SumsUp input (.opened number :: story) r := by
  have hmem : ∀ index what, Note.step index what ∈ .opened number :: story ↔
      .step index what ∈ story := by
    intro index what
    simp
  obtain ⟨hcompleted, hcancelled, hfailed, hsteps, houtputs⟩ := h
  constructor <;> simpa only [Passed, Flagged, Fails, Yields, Called, hmem]

/-! ## The order of the notes -/

/-- What is to be said of a note and the notes before it. -/
def Justified (before : List Note) : Note → Prop
  | .step index (.called _) => .step index (.registered (.ok ())) ∈ before ∧
      ∀ previous, previous < index → .step previous (.recorded (.ok ())) ∈ before
  | _ => True

/-- Each note is justified by those before it. -/
def AllJustified : List Note → List Note → Prop
  | _, [] => True
  | before, note :: rest => Justified before note ∧ AllJustified (before ++ [note]) rest

/-- Notes after others are justified by these, too. -/
theorem allJustified_append {xs ys : List Note} :
    AllJustified earlier (xs ++ ys) ↔
      AllJustified earlier xs ∧ AllJustified (earlier ++ xs) ys := by
  -- The notes before are generalised, since each note joins them as the list is gone through.
  induction xs generalizing earlier with
  | nil =>
    rw [List.append_nil]
    exact ⟨fun h => ⟨trivial, h⟩, fun h => h.2⟩
  | cons note rest ih =>
    have hcons : earlier ++ note :: rest = earlier ++ [note] ++ rest :=
      (List.append_assoc earlier [note] rest).symm
    rw [hcons]
    show _ ∧ AllJustified _ (rest ++ ys) ↔ (_ ∧ AllJustified _ rest) ∧ _
    rw [ih, and_assoc]

/-- The notes of an attempt are justified when those before record all earlier outputs. -/
theorem Attempt.allJustified {r : Except Mishap Json} (h : Attempt index step tried r)
    (hearlier : ∀ previous, previous < index → .step previous (.recorded (.ok ())) ∈ earlier) :
    AllJustified earlier tried := by
  -- The only note that needs to be justified is the call, and the registration stands right before
  -- it.
  have hcall : Justified (earlier ++ [.step index (.registered (.ok ()))])
      (.step index (.called step)) :=
    ⟨List.mem_append_right _ (List.mem_singleton.mpr rfl),
      fun previous hless => List.mem_append_left _ (hearlier previous hless)⟩
  cases h with
  | unregistered => exact ⟨trivial, trivial⟩
  | broken => exact ⟨trivial, hcall, trivial, trivial⟩
  | unrecorded => exact ⟨trivial, hcall, trivial, trivial, trivial⟩
  | taken => exact ⟨trivial, hcall, trivial, trivial, trivial⟩

/-- An attempt that succeeds records its output. -/
theorem Attempt.recorded_mem {output : Json} (h : Attempt index step tried (.ok output)) :
    .step index (.recorded (.ok ())) ∈ tried := by
  cases h
  simp

/-- The notes of a story are justified when those before it record the outputs of all steps before
the first one that is left. -/
theorem Story.allJustified {r : Except Mishap Summary}
    (h : Story run first outputs steps story r)
    (hearlier : ∀ previous, previous < first → .step previous (.recorded (.ok ())) ∈ earlier) :
    AllJustified earlier story := by
  -- What is generalised is the notes before: they grow by those of each step that is taken.
  induction h generalizing earlier with
  | completed => exact trivial
  | cancelled => exact ⟨trivial, trivial⟩
  | @failed index step tried mishap attempt outputs rest =>
    refine ⟨trivial, attempt.allJustified fun previous hless => ?_⟩
    exact List.mem_append_left _ (hearlier previous hless)
  | @taken index step tried later output outputs rest r attempt onward ih =>
    refine allJustified_append.mpr ⟨⟨trivial, attempt.allJustified fun previous hless => ?_⟩,
      ih fun previous hless => ?_⟩
    · exact List.mem_append_left _ (hearlier previous hless)
    · -- Before the next step are those before this one, and this one.
      rcases Nat.lt_succ_iff_lt_or_eq.mp hless with hless | rfl
      · exact List.mem_append_left _ (hearlier previous hless)
      · exact List.mem_append_right _ (List.mem_cons_of_mem _ attempt.recorded_mem)

/-- An attempt calls the executor at most once, on its step. -/
theorem Attempt.calls {r : Except Mishap Json} (h : Attempt index step tried r) :
    tried.filterMap call? <+: [(step, index)] := by
  cases h with
  | unregistered => exact List.nil_prefix
  | broken => exact List.prefix_refl _
  | unrecorded => exact List.prefix_refl _
  | taken => exact List.prefix_refl _

/-- An attempt that succeeds has called the executor on its step. -/
theorem Attempt.calls_eq {output : Json} (h : Attempt index step tried (.ok output)) :
    tried.filterMap call? = [(step, index)] := by
  cases h
  rfl

/-- A story calls the executor on the first steps, in their order and once on each. -/
theorem Story.calls {r : Except Mishap Summary} (h : Story run first outputs steps story r) :
    story.filterMap call? <+: steps.zipIdx first := by
  induction h with
  | completed => exact List.prefix_refl _
  | cancelled => exact List.nil_prefix
  | failed attempt outputs rest =>
    exact attempt.calls.trans ((List.prefix_cons_inj _).mpr List.nil_prefix)
  | @taken index step tried later output outputs rest r attempt onward ih =>
    -- A step that is taken adds one call in front; the check and the other notes are none.
    have hcalls : (Note.step index (.checked false) :: tried ++ later).filterMap call? =
        (step, index) :: later.filterMap call? := by
      rw [List.cons_append, List.filterMap_cons_none rfl, List.filterMap_append, attempt.calls_eq]
      rfl
    rw [hcalls, List.zipIdx_cons]
    exact (List.prefix_cons_inj _).mpr ih

/-- In a story no step is executed once the run has seen that it should stop. -/
theorem Story.unflagged {r : Except Mishap Summary} (h : Story run first outputs steps story r)
    {called stopped : Nat} (hcalled : Called story called step) (hflagged : Flagged story stopped) :
    called < stopped := by
  -- Only a story that was stopped has a flag to speak of, and it calls nothing from that step on.
  cases h.verdict with
  | completed _ _ unflagged => exact absurd hflagged (unflagged stopped)
  | cancelled reached _ _ _ flagged _ before =>
    rw [(flagged stopped).mp hflagged]
    exact before called step hcalled
  | failed _ _ _ _ unflagged => exact absurd hflagged (unflagged stopped)

/-- What a note in justified notes says is justified by those before it. -/
theorem AllJustified.of_split {before after : List Note} {note : Note}
    (h : AllJustified [] (before ++ note :: after)) : Justified before note :=
  (allJustified_append.mp h).2.1

/-- The beginning of notes in order is in order. -/
theorem Orderly.front (h : Orderly steps story) (hnotes : notes <+: story) :
    Orderly steps notes := by
  -- Each of the four is said of what stands before a note, or of two notes at once, so it passes on
  -- to a beginning.
  obtain ⟨rest, rfl⟩ := hnotes
  constructor
  · exact ((List.prefix_append notes rest).filterMap call?).trans h.calls
  · rintro before index step after rfl
    exact h.registered before index step (after ++ rest) (List.append_assoc ..)
  · rintro before index step after rfl
    exact h.recorded before index step (after ++ rest) (List.append_assoc ..)
  · intro index step stopped hcalled hflagged
    exact h.unflagged index step stopped (List.mem_append_left _ hcalled)
      (List.mem_append_left _ hflagged)

/-- The notes of a run that tell a story are in order. -/
theorem Story.orderly {r : Except Mishap Summary} (h : Story run 0 outputs steps story r)
    (number : Nat) : Orderly steps (.opened number :: story) := by
  -- The opening of the context is the first note, and it needs nothing before it.
  have hall : AllJustified [] (.opened number :: story) :=
    ⟨trivial, h.allJustified fun _ hless => absurd hless (Nat.not_lt_zero _)⟩
  constructor
  · exact h.calls
  · rintro before index step after hsplit
    exact (hsplit ▸ hall).of_split.1
  · rintro before index step after hsplit
    exact (hsplit ▸ hall).of_split.2
  · intro index step stopped hcalled hflagged
    have hcalled : Called story index step := by simpa [Called] using hcalled
    exact h.unflagged hcalled (by simpa [Flagged] using hflagged)

/-- A run that has not begun is in order. -/
theorem orderly_nil (steps : List Step) : Orderly steps [] := by
  constructor
  · exact List.nil_prefix
  · intro before index step after hsplit
    simp at hsplit
  · intro before index step after hsplit
    simp at hsplit
  · intro index step stopped hcalled
    cases hcalled

/-! ## The account of a run -/

/-- A run does its work in order, and its result is what that work comes to. The notes are only
taken along: when they are forgotten, this is the run. Whatever others do to the world meanwhile,
the notes are in order at any moment. In the end either no context could be opened, and the run has
failed without a note, or the result is told by the notes. -/
theorem perform_accounts (executor : Executor) (input : RunInput) (flag : Nat) (w : World) :
    (performNoted executor input flag (w, [])).forget = input.perform executor flag w ∧
      (∀ d, (performNoted executor input flag (w, [])).CanStop Aside d →
        Orderly input.workflow.steps d.2) ∧
      ∀ d r, (performNoted executor input flag (w, [])).CanEnd Aside d r →
        (d.2 = [] ∧ ∃ failure, r = .error failure) ∨
          (∃ number, .opened number ∈ d.2) ∧ SumsUp input d.2 r := by
  have htells := tells_perform executor input flag w
  refine ⟨forgets_perform executor input flag (w, []), fun d hstop => ?_, fun d r hend => ?_⟩
  · -- At any moment the notes are those of a story up to some point.
    have halways := htells.of_canStop ?_ hstop
    · rcases halways with hnone | ⟨number, story, result, hstory, hbegun⟩
      · rw [hnone]
        exact orderly_nil _
      · exact (hstory.orderly number).front hbegun
    · rintro notes r (⟨hnone, -⟩ | ⟨number, story, result, hstory, hnotes, -⟩)
      · exact .inl hnone
      · exact .inr ⟨number, story, result, hstory, hnotes ▸ List.prefix_refl _⟩
  · -- In the end they are those of a whole story.
    rcases htells.of_canEnd hend with hnone | ⟨number, story, result, hstory, hnotes, rfl⟩
    · exact .inl hnone
    · rw [hnotes]
      exact .inr ⟨⟨number, List.mem_cons_self⟩, hstory.sumsUp.opened number⟩

/-- A run whose second step asks it to stop is cancelled before the third. For the key that the
first two steps share it has the output of the second. -/
theorem perform_accounts_stopped :
    let workflow : Workflow := ⟨[], [], [], [],
      [⟨"a", [], some ⟨"k", none⟩⟩, ⟨"b", [], some ⟨"k", none⟩⟩, ⟨"c", [], none⟩]⟩
    let executor : Executor := fun step _ => do
      if step.label = "b" then Stage.stop
      return .text step.label
    let w := (World.start .standard (Memory.backend .empty) default).addFlag.2
    let input : RunInput := ⟨"r", ⟨"acme", none⟩, workflow, ∅⟩
    ∃ d s value, (performNoted executor input 0 (w, [])).CanEnd Aside d (.ok s) ∧
      Orderly workflow.steps d.2 ∧ s.status = .cancelled ∧ s.stepsCompleted = 2 ∧
      Flagged d.2 2 ∧ (∀ previous, previous < 2 → Passed d.2 previous) ∧
      Yields d.2 "k" value ∧ value.text? = some "b" := by
  intro workflow executor w input
  let final := (performNoted executor input 0 (w, [])).alone fun _ d => d
  have haside : ∀ (_ : Wait) (d : World × List Note), Aside d d := fun _ _ => rfl
  have hend : (performNoted executor input 0 (w, [])).CanEnd Aside final.2 final.1 :=
    Paused.canEnd_alone (fun _ d => d) haside _
  -- The theorem is applied to the run on its own, and what its account says is read off the
  -- summary.
  obtain ⟨-, horderly, haccount⟩ := perform_accounts executor input 0 w
  have hresult : final.1.toOption.map (fun s =>
      (s.status, s.stepsCompleted, (s.outputs.get? "k").bind Json.text?)) =
        some (.cancelled, 2, some "b") := by
    dsimp only [final, input, w, executor, workflow]
    decide +kernel
  rcases haccount _ _ hend with ⟨-, failure, hr⟩ | ⟨-, hsums⟩
  · rw [hr] at hresult
    cases hresult
  · cases hr : final.1 with
    | error failure =>
      rw [hr] at hresult
      cases hresult
    | ok s =>
      rw [hr] at hend hsums hresult
      have hsummary := Option.some.inj hresult
      have hstatus : s.status = .cancelled := congrArg Prod.fst hsummary
      have hcount : s.stepsCompleted = 2 := congrArg (fun x => x.2.1) hsummary
      have houtput := congrArg (fun x => x.2.2) hsummary
      obtain ⟨value, hvalue, htext⟩ := Option.bind_eq_some_iff.mp houtput
      obtain ⟨-, hpassed, hflagged⟩ := (hsums.cancelled 2).mp ⟨s, rfl, hstatus, hcount⟩
      exact ⟨final.2, s, value, hend, horderly _ hend.canStop, hstatus, hcount, hflagged, hpassed,
        (hsums.outputs s rfl "k" value).mp hvalue, htext⟩

end RunParams.RunInput
