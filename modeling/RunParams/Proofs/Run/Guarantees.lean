import RunParams.Lookup.Memory
import RunParams.Proofs.Run.Courses

/-!
# What a run leaves behind and what it promises its executor

Two things follow from the course of a run. When nobody else touches the registry, a run leaves it
as it found it, however it ends: the run opens a context only under an id that has none, and
discards it again (`RunInput.leaves_registry`). And whatever others may do, each time the executor
is called on a step, the context provides the parameters of the step
(`RunInput.executor_provided`).
-/

namespace RunParams

variable {run : String} {q q' : Course} {start w s s' t : World} {executor : Executor}
  {input : RunInput} {flag : Nat}

/-! ## The registry afterwards -/

/-- How the world stands to that in which a run began, when nobody else touches the registry. -/
inductive Course.Since (run : String) (w : World) : Course → World → Prop
  | before {left : List Step} {s : World} (undisturbed : w.Undisturbed s) :
    Since run w ⟨none, left⟩ s
  | opened {number createdAt : Nat} {left : List Step} {s : World} (free : w.live.get? run = none)
    (unused : w.contexts.length ≤ number)
    (live : s.live = w.live.insert run ⟨number, createdAt⟩) (contexts : w.contexts <+: s.contexts) :
    Since run w ⟨some number, left⟩ s

/-- The contexts that were there stay as they are when a run works on one that was not. -/
theorem Course.Leads.keeps_contexts (h : q.Leads run start s q')
    (hfirst : w.contexts <+: start.contexts)
    (hown : ∀ number, q'.own = some number → w.contexts.length ≤ number) :
    w.contexts <+: s.contexts := by
  rw [List.prefix_iff_getElem?] at hfirst ⊢
  intro n hn
  -- A context of before is another one than that of the run, which came later.
  have hother : q'.own ≠ some n := fun hsame => absurd hn (Nat.not_lt_of_le (hown n hsame))
  have hstart : n < start.contexts.length := (List.getElem?_eq_some_iff.mp (hfirst n hn)).1
  rw [h.others n hstart hother]
  exact hfirst n hn

/-- A stretch of a run goes on from where the run stands. -/
theorem Course.Since.leads (h : q.Since run w start) (hled : q.Leads run start s q') :
    q'.Since run w s := by
  obtain ⟨own', left'⟩ := q'
  -- Whether the run had its context before this stretch decides what the stretch may do to it.
  cases h with
  | before undisturbed =>
    rcases hled.opened with ⟨hown, -⟩ | ⟨-, number, hown, hgains⟩
    · cases hown
      exact .before (undisturbed.trans (hled.idle rfl))
    · -- The context is opened in this stretch, with a number that no context had before.
      cases hown
      obtain ⟨createdAt, hlive⟩ := hgains.live
      have hfree : w.live.get? run = none := undisturbed.live ▸ hgains.free
      have hunused : w.contexts.length ≤ number := undisturbed.contexts ▸ hgains.unused
      have hinsert : s.live = w.live.insert run ⟨number, createdAt⟩ := by
        rw [hlive, undisturbed.live]
      refine .opened hfree hunused hinsert ?_
      refine hled.keeps_contexts (undisturbed.contexts ▸ List.prefix_refl _) fun n hn => ?_
      cases hn
      exact hunused
  -- The run has opened its context already, and does so only once.
  | opened free unused live contexts =>
    rcases hled.opened with ⟨hown, hlive⟩ | ⟨hnone, -⟩
    · cases hown
      refine .opened free unused (hlive.trans live) (hled.keeps_contexts contexts fun n hn => ?_)
      cases hn
      exact unused
    · cases hnone

/-- Nothing changes for a run while nobody touches the registry. -/
theorem Course.Since.undisturbed (h : q.Since run w s) (h' : s.Undisturbed s') :
    q.Since run w s' := by
  cases h with
  | before undisturbed => exact .before (undisturbed.trans h')
  | opened free unused live contexts =>
    exact .opened free unused (h'.live.trans live) (h'.contexts ▸ contexts)

namespace RunInput

/-- A run leaves the registry as it found it, when nobody else touches it meanwhile: whatever the
stores answer and the executor does, whenever the run is asked to stop, and however it ends, the
same contexts are live as before, and all contexts that were there are as they were. A run whose id
has a live context fails; it has no step executed and does not touch any context. -/
theorem leaves_registry {r : Except Failure Summary}
    (h : (input.perform executor flag w).CanEnd World.Undisturbed t r) :
    t.live = w.live ∧ w.contexts <+: t.contexts ∧
      (Registry.contains w input.run = true →
        (∃ failure, r = .error failure) ∧ t.contexts = w.contexts ∧ t.calls = w.calls) := by
  obtain ⟨q, a, hsince, hends⟩ := (course_perform executor input flag w).of_canEnd
    (fun q s => q.Since input.run w s) (.before (.refl w))
    (fun _ _ _ _ _ _ hsince hled hfound => (hsince.leads hled).undisturbed hfound) h
  -- At the end the run has opened its context or not; accordingly it discards one or none.
  cases hsince with
  | before undisturbed =>
    rcases hends.live with ⟨-, hlive, hfailed⟩ | ⟨hown, -⟩
    · have hcontexts : t.contexts = w.contexts := hends.contexts.trans undisturbed.contexts
      exact ⟨hlive.trans undisturbed.live, hcontexts ▸ List.prefix_refl _,
        fun _ => ⟨hfailed, hcontexts, hends.calls.trans undisturbed.calls⟩⟩
    · -- A run that discards has a context of its own, and this one has opened none.
      exact absurd rfl hown
  | opened free unused live contexts =>
    refine ⟨?_, hends.contexts ▸ contexts, fun hcontains => ?_⟩
    · -- The entry of the run was inserted and is erased, and it was not there before.
      rcases hends.live with ⟨hown, -⟩ | ⟨-, hlive⟩
      · cases hown
      · rw [hlive, live]
        exact KeyMap.erase_insert free
    · -- The id was free when the context was opened, so it was not busy from the start.
      rw [Registry.contains_eq_false_iff.mpr free] at hcontains
      cases hcontains

/-- Beside a run with a live context another one completes and leaves that context alone, and a
second one with the same id fails. -/
theorem leaves_registry_busy :
    let created := (Registry.create "busy" ⟨"acme", none⟩ .none
      (.start .standard (Memory.backend .empty) default)).alone fun _ w => w
    let w := created.2
    let workflow : Workflow := { Workflow.empty with steps := [⟨"greet", [], none⟩] }
    let idle := perform echo ⟨"idle", ⟨"acme", none⟩, workflow, ∅⟩ 0 w
    let busy := perform echo ⟨"busy", ⟨"acme", none⟩, workflow, ∅⟩ 0 w
    ∃ t r t' failure, idle.CanEnd World.Undisturbed t (.ok r) ∧ t.live = w.live ∧
      t.calls.length = 1 ∧ busy.CanEnd World.Undisturbed t' (.error failure) ∧
      Registry.contains w "busy" = true ∧ t'.live = w.live ∧ t'.calls = w.calls := by
  intro created w workflow idle busy
  -- Alone nothing comes between, so nothing is disturbed.
  have halone : ∀ p : Paused World Failure Summary,
      p.CanEnd World.Undisturbed (p.alone fun _ w => w).2 (p.alone fun _ w => w).1 :=
    Paused.canEnd_alone (fun _ w => w) fun _ w => World.Undisturbed.refl w
  have hidle := halone idle
  have hbusy := halone busy
  have hlive : Registry.contains w "busy" = true := by decide +kernel
  have hcompletes : (idle.alone fun _ w => w).1.isOk = true := by decide +kernel
  have hcalled : (idle.alone fun _ w => w).2.calls.length = 1 := by decide +kernel
  cases hresult : (idle.alone fun _ w => w).1 with
  | error e =>
    rw [hresult] at hcompletes
    cases hcompletes
  | ok summary =>
    rw [hresult] at hidle
    obtain ⟨hsame, -, hfails⟩ := leaves_registry hbusy
    obtain ⟨⟨failure, hfailure⟩, -, hcalls⟩ := hfails hlive
    rw [hfailure] at hbusy
    exact ⟨_, summary, _, failure, hidle, (leaves_registry hidle).1, hcalled, hbusy, hlive, hsame,
      hcalls⟩

end RunInput

/-! ## The calls of the executor -/

/-- What others do to contexts is to change them. They may do anything else. -/
def World.OthersChange (w w' : World) : Prop :=
  ∀ (n : Nat) (c : Context), w.contexts[n]? = some c →
    ∃ changes, w'.contexts[n]? = some (c.changed changes)

/-- A context stays supplied whatever others change. -/
theorem World.Holds.othersChange {own : Option Nat} (h : w.Holds own) (h' : w.OthersChange s) :
    s.Holds own := by
  intro number hown
  obtain ⟨c, hc, hsupplied⟩ := h number hown
  obtain ⟨changes, hchanged⟩ := h' number c hc
  exact ⟨c.changed changes, hchanged, Context.supplied_changed hsupplied changes⟩

namespace RunInput

/-- What a run has had executed on its course is for the next steps. -/
theorem executed_of_onCourse {α : Type} {p : Paused World Failure α}
    {stretches : List (World × World)} (hcourse : OnCourse run (Course.Ends run) q start p)
    (hheld : start.Holds q.own) (h : p.Stretches World.OthersChange start stretches) :
    ∃ taken called, taken <+: q.left ∧
      List.Forall₂ (fun (x : World × World) calls => x.2.calls = x.1.calls ++ calls)
        stretches called ∧
      List.Forall₂ (fun step call => call.IsFor run step) taken called.flatten := by
  -- The induction is on the stretches; each begins where the others have left the registry.
  induction h generalizing q with
  | first start p =>
    -- In its last stretch a run calls nobody, and in any other one the steps taken are those
    -- called.
    cases p with
    | ended s r =>
      have hends : q.Ends run start s r := hcourse
      refine ⟨[], [[]], List.nil_prefix, .cons ?_ .nil, .nil⟩
      exact hends.calls.trans (List.append_nil _).symm
    | waiting s wait resume =>
      obtain ⟨q', hled, -⟩ := hcourse
      obtain ⟨-, taken, called, hleft, hcalls, hall⟩ := hled.executed hheld
      refine ⟨taken, [called], ⟨q'.left, hleft.symm⟩, .cons hcalls .nil, ?_⟩
      rw [List.flatten_singleton]
      exact hall
  | @next start s s' wait resume later found _ ih =>
    obtain ⟨q', hled, hrest⟩ := hcourse
    -- The steps taken in this stretch come first, then those of the later ones.
    obtain ⟨hheld', taken, called, hleft, hcalls, hall⟩ := hled.executed hheld
    obtain ⟨taken', called', hfirst, hcalls', hall'⟩ := ih (hrest s') (hheld'.othersChange found)
    refine ⟨taken ++ taken', called :: called', ?_, .cons hcalls hcalls', ?_⟩
    · rw [hleft]
      exact (List.prefix_append_right_inj taken).mpr hfirst
    · rw [List.flatten_cons]
      exact List.rel_append hall hall'

/-- Whenever a run calls its executor, the context provides the parameters of the step. Up to any
moment of a run, whatever the stores have answered and others have done, what the stretches of the
run have added to the calls of the executor are calls for the first steps of the workflow, one for
each of them in their order. Each was made with a context that has, for every parameter listed in
the step, a definition under its key and, unless what is defined there awaits an output, a value.
-/
theorem executor_provided {stretches : List (World × World)}
    (h : (input.perform executor flag w).Stretches World.OthersChange w stretches) :
    ∃ taken called, taken <+: input.workflow.steps ∧
      List.Forall₂ (fun (x : World × World) calls => x.2.calls = x.1.calls ++ calls)
        stretches called ∧
      List.Forall₂ (fun step call => call.IsFor input.run step) taken called.flatten :=
  executed_of_onCourse (course_perform executor input flag w) (fun _ hown => nomatch hown) h

/-- A run with one step, which reads a workflow parameter and an entry of it, has the step executed
with a context that provides both. -/
theorem executor_provided_greeting :
    let customer : WorkflowParameter := .ofKey "customer" .json
    let name := ContextParameter.ofSource "name" ⟨.workflow, "customer"⟩
    let step : Step := ⟨"greet", [.workflow customer, .context name], none⟩
    let workflow : Workflow := ⟨[customer], [], [], [], [step]⟩
    let inputs := KeyMap.ofList [("customer", Json.ofMembers [("name", .text "Ada")])]
    let w := World.start .standard (Memory.backend .empty) default
    let p := perform echo ⟨"run", ⟨"acme", none⟩, workflow, inputs⟩ 0 w
    let history := p.history (fun _ w => w) w
    p.Stretches World.OthersChange w history ∧
      (history.map fun x => x.2.calls.length - x.1.calls.length) = [0, 0, 0, 1, 0] ∧
      ∃ taken called, taken <+: [step] ∧
        List.Forall₂ (fun (x : World × World) calls => x.2.calls = x.1.calls ++ calls)
          history called ∧
        List.Forall₂ (fun step call => call.IsFor "run" step) taken called.flatten := by
  intro customer name step workflow inputs w p history
  have hstretches : p.Stretches World.OthersChange w history :=
    Paused.stretches_history (fun _ w => w) (fun _ _ _ _ hc => ⟨[], hc⟩) w p
  exact ⟨hstretches, by decide +kernel, executor_provided hstretches⟩

end RunInput

end RunParams
