import RunParams.Proofs.Secrecy.Worlds
import RunParams.Run.Perform

/-!
# Runs do not look at secrets

Whoever never asks a context to reveal anything sees its `View`: the store, the notes, how many
secrets there are, but no secret. An executor is blind if what it does with a step depends on the
view of the context alone (`Executor.Blind`); `echo` is. `RunInput.perform_alike` shows that a run
with a blind executor goes alike in alike worlds, from the creation of its context to its end.
-/

namespace RunParams

/-- What can be read of a context without revealing anything. -/
structure Context.View where
  run : String
  organization : Organization
  createdAt : Nat
  fetchLimit : Option Duration
  handleLead : String
  secretCount : Nat
  store : Store
  metadata : KeyMap (KeyMap Json)

/-- The view of a context. -/
def Context.view (c : Context) : Context.View :=
  ⟨c.run, c.organization, c.createdAt, c.fetchLimit, c.vault.lead, c.secretCount, c.store,
    c.metadata⟩

/-- Alike contexts have the same view. -/
theorem Context.Alike.view_eq {c c' : Context} (h : Context.Alike c c') : c.view = c'.view := by
  simp only [Context.view, Context.secretCount, h.run, h.organization, h.createdAt, h.fetchLimit,
    h.vault.lead, h.vault.size_eq, h.store, h.metadata]

/-- An executor that does the same work for contexts with the same view. -/
def Executor.Blind (executor : Executor) : Prop :=
  ∀ step c c', c.view = c'.view → executor step c = executor step c'

/-- Repeating values reveals nothing. -/
theorem echo_blind : Executor.Blind echo := by
  intro step c c' h
  have hrun : c.run = c'.run := congrArg Context.View.run h
  have hstore : c.store = c'.store := congrArg Context.View.store h
  simp only [echo, valuesOf, hrun, hstore]

namespace RunInput

variable {w w' : World}

/-- Work on a context on the way of a run. -/
theorem onContext_alike (number : Nat) (doing : String) {action : Action Context Unit}
    (ha : Action.Alike Context.Alike Eq action action) :
    Program.Alike World.Alike Eq (onContext number doing action)
      (onContext number doing action) := by
  refine (World.act_alike number ha).attempt.bind fun r r' hr => ?_
  rw [resultAlike_eq] at hr
  subst hr
  split
  · exact .pure rfl
  · exact .fail

/-- A blind executor does the same work in alike worlds, and sees alike contexts. -/
theorem execute_alike {executor : Executor} (hb : executor.Blind) (input : RunInput)
    (flag number : Nat) (step : Step) :
    Program.Alike World.Alike Eq (execute executor input flag number step)
      (execute executor input flag number step) := by
  refine Program.Alike.get.bind fun w w' h => ?_
  have hcontext := h.context number
  refine (Program.Alike.modify fun v v' hv => ?_).andThen ?_
  · exact { hv with calls := List.rel_append hv.calls (.cons ⟨rfl, rfl, hcontext⟩ .nil) }
  · -- The executor does the very same work, since it only sees the view of the context.
    rw [hb step _ _ hcontext.view_eq]
    have hwork : Program.Alike Eq Eq (executor step (w'.contexts.getD number default))
        (executor step (w'.contexts.getD number default)) := by
      rintro s _ rfl
      exact Paused.alike_refl _
    refine (hwork.within (Q := World.Alike) ?_ ?_).attempt.bind fun r r' hr => ?_
    · intro v v' hv
      simp only [Stage.ofWorld, World.flagged, hv.around.clock, hv.around.log, hv.permits, hv.flags]
    · rintro s _ v v' rfl hv
      exact { hv with
        around := { hv.around with log := rfl }
        permits := rfl
        flags := congrArg (·.set flag s.stopping) hv.flags }
    · rw [resultAlike_eq] at hr
      subst hr
      split
      · exact .pure rfl
      · exact .fail

/-- A step is taken alike. -/
theorem takeStep_alike {executor : Executor} (hb : executor.Blind) (input : RunInput)
    (flag number : Nat) (step : Step) :
    Program.Alike World.Alike Eq (takeStep executor input flag number step)
      (takeStep executor input flag number step) := by
  refine (onContext_alike _ _ (Context.register_alike _ _)).andThen ?_
  refine (execute_alike hb _ _ _ _).bind fun output _ houtput => ?_
  subst houtput
  exact (onContext_alike _ _ (Context.onStore_alike _)).andThen (.pure rfl)

/-- A step is taken alike with the context locked. -/
theorem takeStepLocked_alike {executor : Executor} (hb : executor.Blind) (input : RunInput)
    (flag number : Nat) (step : Step) :
    Program.Alike World.Alike Eq (takeStepLocked executor input flag number step)
      (takeStepLocked executor input flag number step) := by
  refine (World.lock_alike number flag).andThen ?_
  refine (takeStep_alike hb _ _ _ _).attempt.bind fun r r' hr => ?_
  refine (Program.Alike.modify fun w w' h => ?_).andThen (.ofExcept hr)
  exact { h with locks := by simp only [World.unlock, h.locks] }

/-- The steps that are left are taken alike. -/
theorem takeSteps_alike {executor : Executor} (hb : executor.Blind) (input : RunInput)
    (flag number taken : Nat) (outputs : KeyMap Json) (steps : List Step) :
    Program.Alike World.Alike Eq (takeSteps executor input flag number taken outputs steps)
      (takeSteps executor input flag number taken outputs steps) := by
  induction steps generalizing taken outputs with
  | nil => exact .pure rfl
  | cons step rest ih =>
    refine Program.Alike.get.bind fun w w' h => ?_
    have hflag : w.flagged flag = w'.flagged flag := by simp only [World.flagged, h.flags]
    rw [hflag]
    split
    · exact (World.report_alike _).andThen (.pure rfl)
    · refine (takeStepLocked_alike hb _ _ _ _).bind fun output _ houtput => ?_
      subst houtput
      exact ih _ _

/-- The context of a run is opened alike. -/
theorem openContext_alike (input : RunInput) (declarations : Declarations) :
    Program.Alike World.Alike Eq (input.openContext declarations)
      (input.openContext declarations) := by
  refine (Registry.create_alike _ _ _).attempt.bind fun r r' hr => ?_
  rw [resultAlike_eq] at hr
  subst hr
  split
  · exact .pure rfl
  · split
    · exact (World.report_alike _).andThen .fail
    · exact .fail

/-- A run goes alike in alike worlds if its executor is blind. -/
theorem perform_alike {executor : Executor} (hb : executor.Blind) (input : RunInput)
    (flag : Nat) :
    Program.Alike World.Alike Eq (input.perform executor flag) (input.perform executor flag) := by
  refine (Program.Alike.ofExcept (resultAlike_eq.mpr rfl)).bind fun declarations _ hd => ?_
  subst hd
  refine (World.report_alike _).andThen ?_
  refine (openContext_alike _ _).bind fun number _ hnumber => ?_
  subst hnumber
  -- However the steps end, the context is discarded before the end is reported.
  refine (takeSteps_alike hb _ _ _ _ _ _).attempt.bind fun r r' hr => ?_
  rw [resultAlike_eq] at hr
  subst hr
  refine (Registry.discard_alike _).bind fun found _ hfound => ?_
  split
  · exact (World.report_alike _).andThen (.pure rfl)
  · exact (World.report_alike _).andThen .fail

end RunInput

end RunParams
