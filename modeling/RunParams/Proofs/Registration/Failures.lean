import RunParams.Proofs.Registration.Cycles
import RunParams.Proofs.Registration.Equations
import RunParams.Proofs.Registration.Tiers

/-!
# What a failed registration leaves behind

Parameters are registered one after the other, and what has been registered before a failure stays.
How much that is follows from the order of registration. As the first part of an order is the
order of its own parameters (`Parameter.registrationOrder_front`), a failure at a parameter leaves
what a registration of those before it would have left (`Store.register_of_failure`).

Two errors leave nothing. Without an order nothing is registered at all, and a parameter that should
not be there is no context parameter, so that only such parameters come before it, all of which were
skipped (`Store.eq_of_enrollAll_immediate`).
-/

namespace RunParams

namespace Parameter

variable {parameters : List Parameter} {p : Parameter}

/-- Without an order of registration there is a cycle. -/
theorem dependencyCycle_of_registrationOrder {e : BindingError}
    (h : registrationOrder parameters = .error e) : ∃ keys, e = .dependencyCycle keys := by
  unfold registrationOrder at h
  -- The only step that can fail is the arranging of the last tier.
  cases hchained : arrange (ofTier .chained parameters) with
  | ok chained =>
    rw [hchained] at h
    cases h
  | error e' =>
    rw [hchained] at h
    cases h
    exact ⟨_, (entangled_of_arrangeIn_error hchained).2⟩

/-- A parameter of the first tier is no context parameter, and all others are. -/
theorem tier_eq_immediate_iff : p.tier = .immediate ↔ ∀ c, p ≠ .context c := by
  -- All but context parameters are of the first tier.
  cases p with
  | context c =>
    refine iff_of_false ?_ fun h => h c rfl
    show (if c.source.kind = .context then Tier.chained else .direct) ≠ .immediate
    by_cases hkind : c.source.kind = .context
    · rw [if_pos hkind]; decide
    · rw [if_neg hkind]; decide
  | workflow _ | output _ | credential _ | externalSecret _ => exact iff_of_true rfl nofun

end Parameter

/-- An error with which a registration may fail when part of it is done: parameters do not refer to
each other in a circle, and none of them should not be there. -/
def BindingError.IsPartial (e : BindingError) : Prop :=
  (∀ keys, e ≠ .dependencyCycle keys) ∧ ∀ key kind, e ≠ .unexpectedParameter key kind

namespace Store

variable {s t : Store} {p : Parameter} {c : ContextParameter} {key : String}
  {parameters before after : List Parameter} {e : BindingError} {run : String}

/-! ## Where a registration fails -/

/-- A context parameter fails because of its source. -/
theorem isPartial_of_withContext (h : s.withContext c = .error e) : e.IsPartial := by
  -- A source of a kind that cannot be one fails at once, one that is an output never fails, and the
  -- others fail when the value cannot be read.
  cases hsource : c.source.kind.isContextSource with
  | false =>
    rw [withContext_of_no_source hsource] at h
    cases h
    exact ⟨nofun, nofun⟩
  | true =>
    by_cases hkind : c.source.kind = .output
    · rw [withContext_of_output hkind] at h
      cases h
    · rw [withContext_of_reads (ContextParameter.reads_of_ne_output hsource hkind)] at h
      unfold entryOf at h
      cases hvalue : s.value? c.source.key with
      | none =>
        rw [hvalue] at h
        cases h
        exact ⟨nofun, nofun⟩
      | some value =>
        rw [hvalue] at h
        -- Only an object has entries to read.
        cases value with
        | object members => cases h
        | null | bool _ | number _ | text _ | array _ =>
          cases h
          exact ⟨nofun, nofun⟩

/-- A parameter cannot be registered because of its source, or else because it is no context
parameter. -/
theorem of_enroll_eq_error (h : s.enroll p = .error e) :
    (∃ c, p = .context c) ∧ e.IsPartial ∨
      p.tier = .immediate ∧ e = .unexpectedParameter p.key p.kind.name := by
  -- A registered parameter does not fail, and one that is due fails by its own kind.
  cases hdue : s.isRegistered p with
  | true =>
    rw [enroll_of_registered hdue] at h
    cases h
  | false =>
    unfold enroll at h
    rw [if_neg (Bool.eq_false_iff.mp hdue)] at h
    cases p with
    | context c => exact .inl ⟨⟨c, rfl⟩, isPartial_of_withContext h⟩
    | workflow _ | output _ | credential _ | externalSecret _ =>
      cases h
      exact .inr ⟨rfl, rfl⟩

/-- Parameters of the first tier are skipped, if they do not fail. -/
theorem eq_of_enrollAll_immediate (h : s.enrollAll parameters = .ok t)
    (htier : ∀ p ∈ parameters, p.tier = .immediate) : t = s := by
  induction parameters generalizing s with
  | nil =>
    cases h
    rfl
  | cons p rest ih =>
    obtain ⟨u, hp, hrest⟩ := enrollAll_cons.mp h
    -- A parameter of the first tier is skipped, since it would fail if it were due.
    have hu : u = s := by
      cases hdue : s.isRegistered p with
      | true =>
        rw [enroll_of_registered hdue] at hp
        exact (Except.ok.inj hp).symm
      | false =>
        obtain ⟨c, hc, -⟩ := (enroll_of_due hdue).mp hp
        exact absurd hc (Parameter.tier_eq_immediate_iff.mp (htier p List.mem_cons_self) c)
    rw [ih hrest fun q hq => htier q (List.mem_cons_of_mem p hq), hu]

/-- Registering parameters fails at the first one that fails, and leaves what those before it have
left. -/
theorem of_registerAll_eq_error (h : (registerAll run parameters s).result = .error e) :
    ∃ before p after, parameters = before ++ p :: after ∧
      s.enrollAll before = .ok (registerAll run parameters s).state ∧
      (registerAll run parameters s).state.enroll p = .error e := by
  induction parameters generalizing s with
  | nil => cases h
  | cons first rest ih =>
    obtain ⟨events, hone⟩ := registerOne_eq run first s
    unfold registerAll at h ⊢
    -- The first failure ends the registration, and what came before it is done.
    cases hfirst : s.enroll first with
    | error e' =>
      rw [hfirst] at hone
      rw [Action.bind_error hone] at h ⊢
      cases h
      exact ⟨[], first, rest, rfl, rfl, hfirst⟩
    | ok u =>
      rw [hfirst] at hone
      rw [Action.bind_ok hone] at h ⊢
      obtain ⟨before, p, after, rfl, hbefore, hp⟩ := ih h
      exact ⟨first :: before, p, after, rfl, enrollAll_cons.mpr ⟨u, hfirst, hbefore⟩, hp⟩

/-- A registration that fails has no order, or it fails at a parameter and leaves what those before
it in the order have left. -/
theorem of_register_eq_error (h : (register run parameters s).result = .error e) :
    Parameter.registrationOrder parameters = .error e ∧ (register run parameters s).state = s ∨
      ∃ before p after, Parameter.registrationOrder parameters = .ok (before ++ p :: after) ∧
        s.enrollAll before = .ok (register run parameters s).state ∧
        (register run parameters s).state.enroll p = .error e := by
  -- Either no order is found, and nothing happens, or the failure is that of one parameter.
  cases horder : Parameter.registrationOrder parameters with
  | error e' =>
    have hresult : (register run parameters s).result = .error e' := register_of_order_error horder
    rw [h] at hresult
    cases hresult
    refine .inl ⟨rfl, ?_⟩
    unfold register
    rw [horder, Action.bind_error (Action.ofExcept_apply _ _)]
  | ok ordered =>
    obtain ⟨hresult, hstate⟩ := register_of_order run s horder
    obtain ⟨before, p, after, rfl, hbefore, hp⟩ := of_registerAll_eq_error (hresult.symm.trans h)
    rw [← hstate] at hbefore hp
    exact .inr ⟨before, p, after, rfl, hbefore, hp⟩

/-- When a registration fails at a parameter, those before it in the order can be registered, with
the same effect. -/
theorem register_of_failure (run : String)
    (horder : Parameter.registrationOrder parameters = .ok (before ++ p :: after))
    (hbefore : s.enrollAll before = .ok t) :
    (register run before s).result = .ok () ∧ (register run before s).state = t :=
  register_ok_iff.mpr ⟨before, Parameter.registrationOrder_front horder, hbefore⟩

/-- A registration that fails has failed at a context parameter and leaves what a registration of
those before it leaves, or it leaves the store as it was. Which it is shows in the error. -/
theorem partial_or_untouched (h : (register run parameters s).result = .error e) :
    e.IsPartial ∧ (∃ before p after,
        Parameter.registrationOrder parameters = .ok (before ++ .context p :: after) ∧
        (register run before s).result = .ok () ∧
        (register run before s).state = (register run parameters s).state ∧
        (register run parameters s).state.enroll (.context p) = .error e) ∨
      ¬ e.IsPartial ∧ (register run parameters s).state = s := by
  rcases of_register_eq_error h with ⟨horder, hsame⟩ | ⟨before, p, after, horder, hbefore, hp⟩
  · obtain ⟨keys, rfl⟩ := Parameter.dependencyCycle_of_registrationOrder horder
    exact .inr ⟨fun hpartial => hpartial.1 keys rfl, hsame⟩
  · -- A failure of a context parameter leaves what was done before it. That of any other parameter
    -- comes before all context parameters, so nothing was done.
    rcases of_enroll_eq_error hp with ⟨⟨q, rfl⟩, hpartial⟩ | ⟨htier, rfl⟩
    · obtain ⟨hok, hsame⟩ := register_of_failure run horder hbefore
      exact .inl ⟨hpartial, before, q, after, horder, hok, hsame, hp⟩
    · -- Only parameters of the first tier come before it, and they were skipped.
      have hskipped := Parameter.immediate_of_before horder htier
      exact .inr ⟨fun hpartial => hpartial.2 _ _ rfl, eq_of_enrollAll_immediate hbefore hskipped⟩

/-- Registrations leave all keys alone that no context parameter among them has. -/
theorem SameAt.of_enrollAll (h : s.enrollAll parameters = .ok t)
    (hkey : ∀ c, .context c ∈ parameters → c.key ≠ key) : SameAt key t s := by
  induction parameters generalizing s with
  | nil =>
    cases h
    exact .refl key t
  | cons p rest ih =>
    obtain ⟨u, hp, hrest⟩ := enrollAll_cons.mp h
    refine (ih hrest fun c hc => hkey c (List.mem_cons_of_mem p hc)).trans ?_
    -- A step that does something does it at the key of its context parameter.
    cases hdue : s.isRegistered p with
    | true =>
      rw [enroll_of_registered hdue] at hp
      cases hp
      exact .refl key s
    | false =>
      obtain ⟨c, rfl, -⟩ := (enroll_of_due hdue).mp hp
      exact .of_enroll hp (hkey c List.mem_cons_self).symm

/-- A registration, be it successful or not, leaves all keys alone that no context parameter of the
step has. -/
theorem sameAt_register (run : String) (hkey : ∀ c, .context c ∈ parameters → c.key ≠ key) :
    SameAt key (register run parameters s).state s := by
  -- Success and failure have both enrolled a front of the order, perhaps all of it.
  cases hresult : (register run parameters s).result with
  | ok u =>
    obtain ⟨ordered, horder, hall⟩ := register_ok_iff.mp ⟨hresult, rfl⟩
    have hsubset := (Parameter.registrationOrder_perm horder).subset
    exact .of_enrollAll hall fun c hc => hkey c (hsubset hc)
  | error e =>
    rcases of_register_eq_error hresult with ⟨-, hstate⟩ | ⟨before, p, after, horder, hall, -⟩
    · rw [hstate]
      exact .refl key s
    · have hsubset := (Parameter.registrationOrder_perm horder).subset
      exact .of_enrollAll hall fun c hc => hkey c (hsubset (List.mem_append_left _ hc))

end Store

namespace Context

open Store

/-- A registration that fails because parameters refer to each other in a circle, or because of a
parameter that should have been bound before, leaves the context as it was. With any other error it
has failed at a context parameter and leaves the context just as the registration of only the
parameters before that one in the order does, which succeeds. However it ends, the vault and the
notes stay as they are, and so do the definitions and values under all keys that no context
parameter of the step has. -/
theorem register_failure (c : Context) (parameters : List Parameter) (organization : String) :
    let effect := register parameters organization c
    ((∃ keys, effect.result = .error (.dependencyCycle keys)) ∨
        (∃ key kind, effect.result = .error (.unexpectedParameter key kind)) → effect.state = c) ∧
      (∀ e, effect.result = .error e → e.IsPartial →
        ∃ before p after,
          Parameter.registrationOrder parameters = .ok (before ++ .context p :: after) ∧
          (register before organization c).result = .ok () ∧
          effect.state = (register before organization c).state ∧
          (registerOne c.run (.context p) effect.state.store).result = .error e) ∧
      effect.state.vault = c.vault ∧ effect.state.metadata = c.metadata ∧
      ∀ key, (∀ p, .context p ∈ parameters → p.key ≠ key) →
        SameAt key effect.state.store c.store := by
  intro effect
  obtain ⟨hresult, hstate⟩ := register_eq c parameters organization
  have hstore : effect.state.store = (Store.register c.run parameters c.store).state :=
    congrArg Context.store hstate
  have hpartly : ∀ e, effect.result = .error e → _ :=
    fun e he => partial_or_untouched (hresult.symm.trans he)
  refine ⟨fun hwrong => ?_, fun e he hpartial => ?_, ?_, ?_, fun key hkey => ?_⟩
  · -- These two failures are the ones that are not partial.
    obtain ⟨e, he, hno⟩ : ∃ e, effect.result = .error e ∧ ¬ e.IsPartial := by
      rcases hwrong with ⟨keys, he⟩ | ⟨key, kind, he⟩
      · exact ⟨_, he, fun hpartial => hpartial.1 keys rfl⟩
      · exact ⟨_, he, fun hpartial => hpartial.2 key kind rfl⟩
    obtain ⟨-, hsame⟩ := (hpartly e he).resolve_left fun hpartial => hno hpartial.1
    rw [show effect.state = _ from hstate, hsame]
  · -- A partial failure has stopped at a context parameter.
    obtain ⟨-, before, p, after, horder, hok, hsame, hp⟩ :=
      (hpartly e he).resolve_right fun huntouched => huntouched.1 hpartial
    obtain ⟨hresult', hstate'⟩ := register_eq c before organization
    obtain ⟨events, hone⟩ := registerOne_eq c.run (.context p) effect.state.store
    rw [← hstore] at hsame hp
    rw [hp] at hone
    refine ⟨before, p, after, horder, hresult'.trans hok, ?_, by rw [hone]⟩
    rw [hstate', hsame, hstore]
    exact hstate
  · rw [show effect.state = _ from hstate]
  · rw [show effect.state = _ from hstate]
  · rw [hstore]
    exact sameAt_register c.run hkey

/-- A chain of two parameters is registered before a third one, whose source is missing. -/
theorem register_failure_third :
    let root := ContextParameter.ofSource "root" ⟨.workflow, "input"⟩
    let street := ContextParameter.ofSource "street" ⟨.context, "root"⟩
    let city := ContextParameter.ofSource "city" ⟨.context, "gone"⟩
    let c := (fresh .standard "run" ⟨"acme", none⟩ 0).set "input"
      (.object [("root", .object [("street", .text "Main Street")])])
    let parameters : List Parameter := [.context street, .context city, .context root]
    let effect := register parameters "acme" c
    effect.result = .error (.notRegistered "gone") ∧
      (∃ before p after,
        Parameter.registrationOrder parameters = .ok (before ++ .context p :: after) ∧
        effect.state = (register before "acme" c).state) ∧
      effect.state.has "street" = true ∧ SameAt "input" effect.state.store c.store := by
  intro root street city c parameters effect
  obtain ⟨-, hpartial, -, -, hothers⟩ := register_failure c parameters "acme"
  have hresult : effect.result = .error (.notRegistered "gone") := by decide +kernel
  obtain ⟨before, p, after, horder, -, hstate, -⟩ := hpartial _ hresult ⟨nofun, nofun⟩
  refine ⟨hresult, ⟨before, p, after, horder, hstate⟩, by decide +kernel, hothers "input" ?_⟩
  intro q hq
  -- None of the three has the key of the input.
  simp only [parameters, List.mem_cons, Parameter.context.injEq, List.not_mem_nil, or_false] at hq
  rcases hq with rfl | rfl | rfl <;> decide

end Context

end RunParams
