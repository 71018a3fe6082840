import RunParams.Proofs.BoundValues.Changes
import RunParams.Proofs.Context.Growth
import RunParams.Proofs.Registration.Arrangement

/-!
# What a context provides for the parameters of a step

A context is supplied when everything in it that is bound at the start has a value
(`Store.Supplied`). No change takes that away, whoever makes it, although a change may put another
value in place (`Context.supplied_change`).

When the parameters of a step have been registered, each of them is registered for good, also one
that was skipped because something else is defined under its key (`Store.isRegistered_register`).
In a supplied context a registered parameter has a definition under its key, and unless that one
awaits an output it has a value as well: the context provides the parameter (`Context.Provides`).
-/

namespace RunParams

/-- Whether a parameter gets its value from the output of a step. -/
def Parameter.awaitsOutput : Parameter → Bool
  | output _ => true
  | context p => p.source.kind = .output
  | workflow _ | credential _ | externalSecret _ => false

namespace Store

variable {s t : Store} {p q : Parameter} {parameters : List Parameter} {key : String}

/-! ## Registered parameters -/

/-- A parameter is registered by its registration. -/
theorem isRegistered_enroll (h : s.enroll p = .ok t) : t.isRegistered p = true := by
  cases hdue : s.isRegistered p with
  | true =>
    rw [enroll_of_registered hdue] at h
    cases h
    exact hdue
  | false =>
    obtain ⟨c, rfl, hok⟩ := (enroll_of_due hdue).mp h
    obtain ⟨henrolled, -⟩ := of_withContext_eq_ok hok
    have hdefined : t.isDefined c.key = true := congrArg Option.isSome henrolled.definition
    -- A context parameter waits for its value only if it reads one, and then it has got it.
    have hpending : t.isPending c.key = false := by
      unfold isPending
      rw [henrolled.definition]
      by_cases hkind : c.source.kind = .output
      · simp [hkind]
      · obtain ⟨members, -, hvalue⟩ :=
          henrolled.entry (ContextParameter.reads_of_ne_output henrolled.isSource hkind)
        have hhas : t.hasValue c.key = true := congrArg Option.isSome hvalue
        simp [hhas]
    show (t.isDefined c.key && !t.isPending c.key) = true
    rw [hdefined, hpending]
    rfl

/-- After some registrations all their parameters are registered, besides those that were so before.
-/
theorem isRegistered_enrollAll (h : s.enrollAll parameters = .ok t)
    (hp : p ∈ parameters ∨ s.isRegistered p = true) : t.isRegistered p = true := by
  induction parameters generalizing s with
  | nil =>
    cases h
    exact hp.resolve_left List.not_mem_nil
  | cons first rest ih =>
    obtain ⟨u, hfirst, hrest⟩ := enrollAll_cons.mp h
    refine ih hrest ?_
    -- It is either the first one, one that comes later, or one registered before.
    rcases hp with hmem | hbefore
    · rcases List.mem_cons.mp hmem with rfl | hmem
      · exact .inr (isRegistered_enroll hfirst)
      · exact .inl hmem
    · exact .inr (isRegistered_enroll_of hfirst hbefore)

/-- After a successful registration all parameters of the step are registered. -/
theorem isRegistered_register {run : String}
    (h : (register run parameters s).result = .ok ()) (hp : p ∈ parameters) :
    (register run parameters s).state.isRegistered p = true := by
  obtain ⟨ordered, horder, henrolled⟩ := register_ok_iff.mp ⟨h, rfl⟩
  have hmem : p ∈ ordered := (Parameter.registrationOrder_perm horder).mem_iff.mpr hp
  exact isRegistered_enrollAll henrolled (.inl hmem)

end Store

namespace Context

variable {c : Context} {p : Parameter}

/-- A context has a definition under the key of a parameter and, unless what is defined there awaits
an output, a value too. -/
def Provides (c : Context) (p : Parameter) : Prop :=
  ∃ q, c.parameter? p.key = some q ∧
    (q.awaitsOutput = false → ∃ value, c.get p.key = .ok value)

/-- No change takes away that what is bound at the start has a value. -/
theorem supplied_change (h : c.store.Supplied) (change : Change) :
    (c.change change).store.Supplied :=
  (growsTo_change c change).supplied h

/-- No number of changes takes away that what is bound at the start has a value. -/
theorem supplied_changed (h : c.store.Supplied) (changes : List Change) :
    (c.changed changes).store.Supplied :=
  (growsTo_changed c changes).supplied h

/-- A well bound context is supplied. -/
theorem WellBound.supplied (h : c.WellBound) : c.store.Supplied := by
  refine ⟨h.keyed, fun key p hp hbound => ?_⟩
  obtain ⟨value, hvalue⟩ := h.valued key p hp hbound
  rw [hvalue]
  rfl

/-- A supplied context provides what is registered in it. -/
theorem provides_of_isRegistered (h : c.store.Supplied) (hp : c.store.isRegistered p = true) :
    c.Provides p := by
  unfold Store.isRegistered at hp
  obtain ⟨hdefined, hready⟩ := Bool.and_eq_true_iff.mp hp
  obtain ⟨q, hq⟩ := Option.isSome_iff_exists.mp hdefined
  refine ⟨q, hq, fun hawaits => ?_⟩
  have hvalue : (c.store.value? p.key).isSome = true := by
    cases q with
    | context d =>
      -- It does not wait for its value, so it has one.
      have hkind : d.source.kind ≠ .output := of_decide_eq_false hawaits
      have hdefinition : c.store.definition? p.key = some (.context d) := hq
      unfold Store.isPending at hready
      rw [hdefinition] at hready
      have hhas : c.store.hasValue p.key = true := by simpa [hkind] using hready
      exact hhas
    | output o => cases hawaits
    | workflow w => exact h.valued p.key _ hq rfl
    | credential d => exact h.valued p.key _ hq rfl
    | externalSecret d => exact h.valued p.key _ hq rfl
  obtain ⟨value, hsome⟩ := Option.isSome_iff_exists.mp hvalue
  refine ⟨value, ?_⟩
  unfold get
  rw [hsome]

end Context

end RunParams
