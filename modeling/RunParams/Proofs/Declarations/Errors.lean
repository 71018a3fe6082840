import RunParams.Proofs.Declarations.Keys
import RunParams.Proofs.Program.Failures

/-!
# Which part of the declarations a failure comes from

The error that an output key is taken comes from the outputs alone: secrets and context parameters
fail with other errors, unless a store itself answers with that one (`Backend.Spares`). So when the
workflow parameters of a run can be bound, the outputs decide whether its declarations fail with a
collision (`Desk.collides_bindAll`).
-/

namespace RunParams

open Program

/-- Not the error that the key of an output is taken. -/
def BindingError.IsApart (e : BindingError) : Prop := ∀ key, e ≠ .outputKeyCollision key

/-- Stores that never fail with the error that the key of an output is taken. -/
def Backend.Spares (backend : Backend) : Prop :=
  ∀ asked q e, (backend asked q).result = .error e → e.IsApart

variable {α : Type} {backend : Backend}

namespace Surroundings

/-- Others leave the stores in place. -/
def SameBackend (s s' : Surroundings) : Prop := s'.backend = s.backend

/-- Work on the surroundings of some stores fails with nothing but other errors. -/
def FailsApart (backend : Backend) (p : Program Surroundings BindingError α) : Prop :=
  p.FailsWith SameBackend (fun s => s.backend = backend) BindingError.IsApart

/-- A report does not fail. -/
theorem failsApart_report (event : Event) : FailsApart backend (report event) :=
  failsWith_of_ended _ (fun _ => ()) (fun _ => rfl) fun _ h => h

/-- Sleeping does not fail. -/
theorem failsApart_sleep (ticks : Nat) : FailsApart backend (sleep ticks) := by
  have hwait : ∀ due, FailsApart backend (waitFor (.clock due)) :=
    fun due => failsWith_waitFor (fun _ _ hs hsame => Eq.trans hsame hs) (.clock due)
  intro s t r hs hend
  unfold sleep at hend
  by_cases hticks : ticks = 0
  · rw [if_pos hticks] at hend
    obtain ⟨rfl, rfl⟩ := hend.of_ended
    exact ⟨hs, fun e he => nomatch he⟩
  · rw [if_neg hticks] at hend
    exact hwait _ s t r hs hend

/-- What is asked for fails as the stores do, or takes too long. -/
theorem failsApart_fetch (hspares : backend.Spares) (limit : Option Duration) (name : String)
    (q : Query) : FailsApart backend (fetch limit name q) := by
  -- Past the question there is only the wait for the answer, which the stores have fixed.
  have hanswer : ∀ (s : Surroundings) (ticks : Nat), s.backend = backend →
      FailsApart backend (sleep ticks >>= fun _ => .ofExcept (s.backend s.asked q).result) := by
    intro s ticks hs
    refine (failsApart_sleep ticks).bind fun _ _ _ _ _ => ?_
    cases hresult : (s.backend s.asked q).result with
    | ok a => exact failsWith_pure a
    | error e => exact failsWith_fail (hspares s.asked q e (hs ▸ hresult))
  intro s t r hs hend
  have hasked : { s with asked := s.asked ++ [q] }.backend = backend := hs
  unfold fetch at hend
  cases limit with
  | none => exact hanswer s _ hs _ t r hasked hend
  | some limit =>
    -- The limit decides which wait it is, and a wait that ends too late fails with an error of its
    -- own kind.
    by_cases hlimit : (s.backend s.asked q).latency.ticks ≤ limit.ticks
    · simp only [hlimit, if_true] at hend
      exact hanswer s _ hs _ t r hasked hend
    · simp only [hlimit, if_false] at hend
      have htimeout : FailsApart backend (sleep limit.ticks >>= fun _ =>
          (fail (.fetchTimeout (describe name q) limit) : Program _ _ q.Answer)) :=
        (failsApart_sleep _).bind fun _ _ _ _ _ => failsWith_fail fun key h => nomatch h
      exact htimeout _ t r hasked hend

/-- A credential fails as the stores do, or it does not fit. -/
theorem failsApart_fetchCredential (hspares : backend.Spares) (limit : Option Duration)
    (id organization : String) : FailsApart backend (fetchCredential limit id organization) := by
  have hmissing : ∀ α : Type, FailsApart backend
      (fail (.credentialNotFound id) : Program Surroundings BindingError α) :=
    fun α => failsWith_fail fun key h => nomatch h
  refine (failsApart_report _).bind fun _ _ _ _ _ => ?_
  have hrow := failsApart_fetch hspares limit id (.credential id organization)
  refine hrow.attempt.bind fun s t answer hs hend => ?_
  obtain ⟨result, hresult, hfetched⟩ := Paused.CanEnd.of_attempt hend
  cases hresult
  -- The error of the stores passes through the report that is made of it.
  cases answer with
  | error e =>
    have hapart : e.IsApart := (hrow s t _ hs hfetched).2 e rfl
    exact (failsApart_report _).bind fun _ _ _ _ _ => failsWith_fail hapart
  | ok row =>
    cases row with
    | none => exact hmissing _
    | some row =>
      show FailsApart backend (if row.organization ≠ organization then _ else _)
      -- A row of another organization is treated like one that is missing.
      by_cases hforeign : row.organization ≠ organization
      · rw [if_pos hforeign]
        exact hmissing _
      · rw [if_neg hforeign]
        cases row.type with
        | password =>
          refine (failsApart_fetch hspares limit id _).bind fun _ _ secret _ _ => ?_
          cases secret with
          | none => exact hmissing _
          | some secret => exact failsWith_pure _
        | creditCard =>
          refine (failsApart_fetch hspares limit id _).bind fun _ _ secret _ _ => ?_
          cases secret with
          | none => exact hmissing _
          | some secret => exact failsWith_pure _
        | unsupported => exact (failsApart_report _).bind fun _ _ _ _ _ => hmissing _

end Surroundings

namespace Bench

/-- Others leave the vault and the stores in place. -/
def SameStores (b b' : Bench) : Prop :=
  SameVault b b' ∧ b'.around.backend = b.around.backend

/-- Work on a bench beside some stores fails with nothing but other errors. -/
def FailsApart (backend : Backend) (p : Program Bench BindingError α) : Prop :=
  p.FailsWith SameStores (fun b => b.around.backend = backend) BindingError.IsApart

/-- What is done outside fails as it does there. -/
theorem failsApart_outside {p : Program Surroundings BindingError α}
    (h : Surroundings.FailsApart backend p) : FailsApart backend (outside p) :=
  FailsWith.within h (fun _ _ _ hsame => hsame.2) (fun _ h => h) fun _ _ h => h

/-- Putting secrets into a vault does not fail. -/
theorem failsApart_mint (m : StateM Mint α) : FailsApart backend (mint m) :=
  failsWith_of_ended _ _ (fun _ => rfl) fun _ h => h

/-- Resolving a credential fails as fetching it does. -/
theorem failsApart_resolveCredential (hspares : backend.Spares) (limit : Option Duration)
    (id organization : String) : FailsApart backend (resolveCredential limit id organization) :=
  (failsApart_outside (Surroundings.failsApart_fetchCredential hspares limit id organization)).bind
    fun _ _ _ _ _ => (failsApart_mint _).bind fun _ _ _ _ _ => failsWith_pure _

/-- Resolving an external secret fails as fetching it does. -/
theorem failsApart_resolveSecret (hspares : backend.Spares) (limit : Option Duration)
    (key : String) : FailsApart backend (resolveSecret limit key) := by
  have hfetch := Surroundings.failsApart_fetch hspares limit key (.secret key)
  refine (failsApart_outside hfetch).bind fun _ _ found _ _ => ?_
  cases found with
  | none => exact failsWith_pure none
  | some secret => exact (failsApart_mint _).bind fun _ _ _ _ _ => failsWith_pure _

end Bench

namespace Desk

open Store

variable {β : Type} {d t : Desk} {declarations : Declarations}

/-- Others leave the context and the stores in place. -/
def SameStores (d d' : Desk) : Prop :=
  SameContext d d' ∧ d'.around.backend = d.around.backend

/-- Work on a desk beside some stores fails with nothing but other errors. -/
def FailsApart (backend : Backend) (p : Program Desk BindingError α) : Prop :=
  p.FailsWith SameStores (fun d => d.around.backend = backend) BindingError.IsApart

/-- Work on the vault fails as it does on a bench. -/
theorem failsApart_onVault {p : Program Bench BindingError α} (h : Bench.FailsApart backend p) :
    FailsApart backend (onVault p) :=
  FailsWith.within h (fun _ _ _ hsame => ⟨congrArg Context.vault hsame.1, hsame.2⟩) (fun _ h => h)
    fun _ _ h => h

/-- Work on the store fails as its end does. -/
theorem failsApart_onStore {action : Action Store α}
    (h : ∀ s e, (action s).result = .error e → e.IsApart) :
    FailsApart backend (onStore action) := by
  intro d t r hd hend
  obtain ⟨rfl, rfl⟩ := hend.of_ended
  exact ⟨hd, h d.context.store⟩

/-- Finding out which credential a parameter designates fails with other errors. -/
theorem isApart_designated (run : String) (p : CredentialParameter) (s : Store) (e : BindingError)
    (h : (designated run p s).result = .error e) : e.IsApart := by
  unfold designated at h
  rw [Action.bind_ok (Action.get_apply s)] at h
  -- There are two ways for the choice of an id to fail, and neither speaks of outputs.
  have herror : e = .credentialNotFound p.key ∨ e = .invalidCredentialReference p.credentialId := by
    by_cases hid : p.credentialId = ""
    · simp only [hid, if_true] at h
      cases h
      exact Or.inl rfl
    · simp only [hid, if_false] at h
      by_cases hdefined : s.isDefined p.credentialId = true
      · simp only [hdefined, if_true] at h
        cases hvalue : s.value? p.credentialId with
        | none =>
          rw [hvalue] at h
          cases h
        | some value =>
          rw [hvalue] at h
          cases value <;> cases h <;> simp
      · simp only [hdefined] at h
        cases h
  rintro key rfl
  rcases herror with h | h <;> cases h

/-- Defining a parameter with a value does not fail. -/
theorem failsApart_define (p : Parameter) (value : Json) : FailsApart backend (define p value) :=
  failsApart_onStore fun _ _ h => nomatch h

/-- A report does not fail. -/
theorem failsApart_report (event : Event) : FailsApart backend (report event) :=
  failsWith_of_ended _ (fun _ => ()) (fun _ => rfl) fun _ h => h

/-- Resolving a credential fails with other errors. -/
theorem failsApart_resolveCredential (hspares : backend.Spares) (id : String) :
    FailsApart backend (resolveCredential id) :=
  failsWith_get.bind fun _ _ _ _ _ =>
    failsApart_onVault (Bench.failsApart_resolveCredential hspares _ id _)

/-- Binding a secret parameter fails with other errors. -/
theorem failsApart_bindSecret (hspares : backend.Spares) (p : SecretParameter) :
    FailsApart backend (bindSecret p) := by
  cases p with
  | credential p =>
    refine failsWith_get.bind fun _ _ d _ _ => ?_
    refine (failsApart_onStore (isApart_designated d.context.run p)).bind fun _ _ id _ _ => ?_
    exact (failsApart_resolveCredential hspares id).bind fun _ _ value _ _ =>
      failsApart_define _ value
  | externalSecret p =>
    have hresolve : FailsApart backend (resolveSecret p.secretKey) := failsWith_get.bind
      fun _ _ d _ _ => failsApart_onVault (Bench.failsApart_resolveSecret hspares _ p.secretKey)
    refine hresolve.bind fun _ _ found _ _ => ?_
    cases found with
    | some handle => exact failsApart_define _ _
    | none => exact failsWith_get.bind fun _ _ _ _ _ => failsApart_report _

/-- Declaring a context parameter fails with other errors. -/
theorem failsApart_declareContext (c : ContextParameter) :
    FailsApart backend (declareContext c) := by
  refine failsApart_onStore fun s e h => ?_
  unfold addContext checkSource at h
  cases hsource : c.source.kind.isContextSource with
  -- The check of the source is the only way for this to fail.
  | true =>
    rw [hsource, if_pos rfl] at h
    cases h
  | false =>
    rw [hsource, if_neg Bool.false_ne_true] at h
    cases h
    exact fun key h => nomatch h

/-- Binding a workflow parameter fails with other errors. -/
theorem failsApart_bindWorkflow (hspares : backend.Spares) (b : WorkflowBinding) :
    FailsApart backend (bindWorkflow b) := by
  have hdefine : FailsApart backend (defineWorkflow b) := by
    unfold defineWorkflow
    by_cases htype : b.parameter.type = .credentialId
    · rw [if_pos htype]
      cases b.value.text? with
      | none => exact failsWith_fail fun key h => nomatch h
      | some id =>
        exact (failsApart_resolveCredential hspares id).bind fun _ _ value _ _ =>
          failsApart_define _ value
    · rw [if_neg htype]
      exact failsApart_define _ b.value
  refine failsWith_get.bind fun _ _ d _ _ => ?_
  by_cases hdefined : d.context.store.isDefined b.parameter.key = true
  · simp only [hdefined, if_true]
    exact (failsApart_report _).bind fun _ _ _ _ _ => hdefine
  · simp only [hdefined]
    exact hdefine

/-- An output fails only with the error that its key is taken. -/
theorem failsWith_declareOutput (o : OutputParameter) :
    (declareOutput o).FailsWith SameStores (fun d => d.around.backend = backend)
      (· = .outputKeyCollision o.key) := by
  intro d t r hd hend
  -- Here alone is a collision an error, and it names the output's own key.
  cases hdefined : d.context.store.isDefined o.key with
  | true =>
    rw [declareOutput_of_isDefined hdefined] at hend
    obtain ⟨rfl, rfl⟩ := hend.of_ended
    exact ⟨hd, fun e he => (Except.error.inj he).symm⟩
  | false =>
    rw [declareOutput_of_free hdefined] at hend
    obtain ⟨rfl, rfl⟩ := hend.of_ended
    exact ⟨hd, fun e he => nomatch he⟩

/-- One declaration after another fails as one of them does. -/
theorem failsWith_each {allowed : BindingError → Prop} {work : β → Program Desk BindingError Unit}
    {declared : List β} (h : ∀ b ∈ declared,
      (work b).FailsWith SameStores (fun d => d.around.backend = backend) allowed) :
    (each work declared).FailsWith SameStores (fun d => d.around.backend = backend) allowed := by
  induction declared with
  | nil => exact failsWith_pure ()
  | cons b rest ih =>
    obtain ⟨hfirst, hrest⟩ := List.forall_mem_cons.mp h
    exact hfirst.bind fun _ _ _ _ _ => ih hrest

end Desk

/-- The outputs get in each other's way, or in that of a workflow parameter. -/
def Declarations.Collides (declarations : Declarations) : Prop :=
  ¬ (declarations.outputs.map (·.key)).Nodup ∨
    ∃ b ∈ declarations.bindings, ∃ o ∈ declarations.outputs, o.key = b.parameter.key

namespace Desk

open Store

variable {d t : Desk} {declarations : Declarations} {r : Except BindingError Unit}

/-- After the workflow parameters the outputs can be declared unless they collide. -/
theorem admits_iff {s : Store} (h : Chain Binds declarations.bindings .empty s) :
    s.Admits declarations.outputs ↔ ¬ declarations.Collides := by
  unfold Admits Declarations.Collides
  rw [not_or, not_not]
  -- The bindings are all that is defined in an empty store, so what an output meets is a binding or
  -- another output.
  refine and_congr_right fun _ => ⟨?_, fun hfree o ho => ?_⟩
  · rintro hfree ⟨b, hb, o, ho, hsame⟩
    have hdefined := (h.isDefined_binds o.key).mpr (Or.inl ⟨b, hb, hsame.symm⟩)
    rw [hfree o ho] at hdefined
    cases hdefined
  · refine Bool.eq_false_iff.mpr fun hdefined => ?_
    rcases (h.isDefined_binds o.key).mp hdefined with ⟨b, hb, hsame⟩ | hempty
    · exact hfree ⟨b, hb, o, ho, hsame.symm⟩
    · cases hempty

/-- What comes after the outputs fails with other errors. -/
theorem failsApart_afterOutputs (hspares : backend.Spares) :
    FailsApart backend (do
      each bindSecret declarations.secrets
      each declareContext declarations.contexts
      let d ← .get
      report (.contextBound d.context.run d.context.store.definitions.size
        d.context.vault.size)) := by
  refine (failsWith_each fun p _ => failsApart_bindSecret hspares p).bind fun _ _ _ _ _ => ?_
  refine (failsWith_each fun c _ => failsApart_declareContext c).bind fun _ _ _ _ _ => ?_
  exact failsWith_get.bind fun _ _ _ _ _ => failsApart_report _

/-- When the workflow parameters of a run can be bound in a fresh context, binding its declarations
fails with the key of an output if the outputs collide, and otherwise with nothing but other errors.
-/
theorem collides_bindAll (hspares : backend.Spares) (hbackend : d.around.backend = backend)
    (hfresh : d.context.store = .empty)
    (hbinds : ∀ t e, ¬ (each bindWorkflow declarations.bindings d).CanEnd SameStores t (.error e))
    (h : (bindAll declarations d).CanEnd SameStores t r) :
    declarations.Collides ∧ (∃ o ∈ declarations.outputs, r = .error (.outputKeyCollision o.key)) ∨
      ¬ declarations.Collides ∧ ∀ e, r = .error e → e.IsApart := by
  have hcontext : ∀ d d', SameStores d d' → SameContext d d' := fun _ _ h => h.1
  -- The bindings do not fail by hypothesis, so the first failure possible is that of an output.
  rcases Paused.CanEnd.of_bind h with ⟨s, _, hfirst, h⟩ | ⟨e, -, hfailed⟩
  · have hs : s.around.backend = backend :=
      (failsWith_each (fun b _ => failsApart_bindWorkflow hspares b) d s _ hbackend hfirst).1
    have hadmits : s.context.store.Admits declarations.outputs ↔ ¬ declarations.Collides :=
      admits_iff (hfresh ▸ chain_of_each of_bindWorkflow (hfirst.mono hcontext))
    rcases Paused.CanEnd.of_bind h with ⟨u, _, houtputs, h⟩ | ⟨e, rfl, houtputs⟩
    · have hdeclare : (each declareOutput declarations.outputs).FailsWith SameStores
          (fun d => d.around.backend = backend) fun _ => True :=
        failsWith_each fun o _ => (failsWith_declareOutput o).mono fun _ _ => trivial
      have hu : u.around.backend = backend := (hdeclare s u _ hs houtputs).1
      -- The outputs were declared, so what fails afterwards is a secret or a context parameter.
      rcases of_declareOutputs (houtputs.mono hcontext) with ⟨hfree, -, -⟩ | ⟨-, o, -, hr⟩
      · exact Or.inr ⟨hadmits.mp hfree, (failsApart_afterOutputs hspares u t r hu h).2⟩
      · cases hr
    · rcases of_declareOutputs (houtputs.mono hcontext) with ⟨-, hr, -⟩ | ⟨htaken, o, ho, hr⟩
      · cases hr
      · refine Or.inl ⟨not_not.mp fun hnot => htaken (hadmits.mpr hnot), o, ho, ?_⟩
        exact congrArg Except.error (Except.error.inj hr)
  · exact absurd hfailed (hbinds t e)

end Desk

end RunParams
