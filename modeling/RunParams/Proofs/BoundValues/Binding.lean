import RunParams.Proofs.BoundValues.Handles

/-!
# What binding the declarations of a run achieves

While the declarations of a run are bound, its context stays `WellBound`: a definition stands under
its own key, a parameter that is bound when the run starts has a value, and the value of a
credential parameter holds handles of the vault of the run.

`Desk.Preserves` says that a program on a desk keeps its context well bound, however long it has to
wait. It holds of whatever the work is made up of and so of `Desk.bindAll`.
-/

namespace RunParams

/-- Whether a parameter gets its value when the run starts. -/
def Parameter.isBoundAtStart : Parameter → Bool
  | workflow _ | credential _ | externalSecret _ => true
  | context _ | output _ => false

/-- Definitions stand under their keys. -/
def Store.Keyed (s : Store) : Prop := ∀ key p, s.definition? key = some p → p.key = key

/-- A new definition stands under its key too. -/
theorem Store.Keyed.define {s : Store} (h : s.Keyed) (p : Parameter) : (s.define p).Keyed := by
  intro key q hq
  rw [definition?_define] at hq
  -- Each definition is under its own key.
  by_cases hkey : key = p.key
  · rw [if_pos hkey] at hq
    cases hq
    exact hkey.symm
  · rw [if_neg hkey] at hq
    exact h key q hq

namespace Context

variable {c : Context} {p : Parameter}

/-- Definitions stand under their keys, what is bound at the start has a value, and that of a
credential parameter holds handles. -/
structure WellBound (c : Context) : Prop where
  keyed : c.store.Keyed
  valued : ∀ key p, c.store.definition? key = some p → p.isBoundAtStart = true →
    ∃ value, c.store.value? key = some value
  handles : ∀ key p, c.store.definition? key = some (.credential p) →
    ∃ value, c.store.value? key = some value ∧ c.vault.HoldsHandles value

/-- A context stays well bound when its vault grows. -/
theorem WellBound.withVault (h : c.WellBound) {v : Vault} (hgrows : c.vault.Grows v) :
    ({ c with vault := v } : Context).WellBound := by
  refine ⟨h.keyed, h.valued, fun key p hp => ?_⟩
  obtain ⟨value, hvalue, hhandles⟩ := h.handles key p hp
  exact ⟨value, hvalue, hhandles.grows hgrows⟩

/-- A context stays well bound when a parameter is bound, a credential parameter to handles. -/
theorem WellBound.bind (h : c.WellBound) {value : Json}
    (hhandles : ∀ q, p = .credential q → c.vault.HoldsHandles value) :
    ({ c with store := c.store.bind p value } : Context).WellBound := by
  have hdefinition : ∀ key, (c.store.bind p value).definition? key =
      if key = p.key then some p else c.store.definition? key :=
    Store.definition?_define c.store p
  have hvalue : ∀ key, (c.store.bind p value).value? key =
      if key = p.key then some value else c.store.value? key :=
    fun key => Store.value?_set (c.store.define p) p.key key value
  -- At the key of the parameter stands what is bound now, and nothing else has changed.
  refine ⟨h.keyed.define p, fun key q hq hbound => ?_, fun key q hq => ?_⟩
  · rw [hdefinition] at hq
    rw [hvalue]
    -- What is bound at the start has its value, and this one has been given it.
    by_cases hkey : key = p.key
    · exact ⟨value, if_pos hkey⟩
    · rw [if_neg hkey] at hq ⊢
      exact h.valued key q hq hbound
  · rw [hdefinition] at hq
    rw [hvalue]
    by_cases hkey : key = p.key
    · rw [if_pos hkey] at hq ⊢
      exact ⟨value, rfl, hhandles q (Option.some.inj hq)⟩
    · rw [if_neg hkey] at hq ⊢
      exact h.handles key q hq

/-- A context stays well bound when a parameter is defined that is not bound at the start. -/
theorem WellBound.define (h : c.WellBound) (hp : p.isBoundAtStart = false) :
    ({ c with store := c.store.define p } : Context).WellBound := by
  refine ⟨h.keyed.define p, fun key q hq hbound => ?_, fun key q hq => ?_⟩
  all_goals
    rw [Store.definition?_define] at hq
    by_cases hkey : key = p.key
  · -- A parameter that is not bound at the start claims nothing, and no other key has changed.
    rw [if_pos hkey] at hq
    cases hq
    rw [hp] at hbound
    cases hbound
  · rw [if_neg hkey] at hq
    exact h.valued key q hq hbound
  · rw [if_pos hkey] at hq
    cases hq
    cases hp
  · rw [if_neg hkey] at hq
    exact h.handles key q hq

end Context

namespace Desk

variable {α β : Type} {d t : Desk}

/-- A program leaves a well bound context behind when it finds one and succeeds. -/
def Preserves (p : Program Desk BindingError α) : Prop :=
  ∀ d t a, d.context.WellBound → (p d).CanEnd SameContext t (.ok a) → t.context.WellBound

/-- Programs that follow each other preserve what each of them does. -/
theorem Preserves.bind {p : Program Desk BindingError α} {next : α → Program Desk BindingError β}
    (h : Preserves p) (hn : ∀ a, Preserves (next a)) : Preserves (p >>= next) := by
  intro d t b hd hend
  obtain ⟨s, a, hfirst, hnext⟩ := Paused.CanEnd.of_bind_ok hend
  exact hn a s t b (h d s a hd hfirst) hnext

/-- A program that only looks at the desk preserves what it goes on with. -/
theorem Preserves.get {next : Desk → Program Desk BindingError β} (hn : ∀ d, Preserves (next d)) :
    Preserves (Program.get >>= next) :=
  fun d => hn d d

/-- A value at hand changes nothing. -/
theorem Preserves.pure (a : α) : Preserves (Pure.pure a) := by
  intro d t _ hd hend
  obtain ⟨rfl, -⟩ := hend.of_ended
  exact hd

/-- A failure does not succeed. -/
theorem Preserves.fail (e : BindingError) : Preserves (Program.fail e : Program Desk _ α) := by
  intro d t a _ hend
  cases hend.of_ended.2

/-- A report is not seen in the context. -/
theorem Preserves.report (event : Event) : Preserves (Desk.report event) := by
  intro d t _ hd hend
  obtain ⟨rfl, -⟩ := hend.of_ended
  exact hd

/-- Work on the store preserves what its end does. -/
theorem Preserves.onStore {action : Action Store α}
    (h : ∀ (c : Context) a, c.WellBound → (action c.store).result = .ok a →
      ({ c with store := (action c.store).state } : Context).WellBound) :
    Preserves (Desk.onStore action) := by
  intro d t a hd hend
  obtain ⟨rfl, hresult⟩ := hend.of_ended
  exact h d.context a hd hresult.symm

/-- Work on the vault ends with the vault that it leaves and is not seen elsewhere. -/
theorem of_onVault {p : Program Bench BindingError α} {r : Except BindingError α}
    (h : (onVault p d).CanEnd SameContext t r) :
    ∃ b, (p ⟨d.context.vault, d.around⟩).CanEnd Bench.SameVault b r ∧
      t.context = { d.context with vault := b.vault } := by
  -- Of the context only the vault is worked on; the rest is what it was at first.
  let frame (whole : Desk) : Prop := { whole.context with vault := d.context.vault } = d.context
  have hpart : ∀ (b : Bench) (whole found : Desk),
      SameContext ⟨{ whole.context with vault := b.vault }, b.around⟩ found →
      Bench.SameVault b ⟨found.context.vault, found.around⟩ :=
    fun b whole found hkept => congrArg Context.vault hkept
  have hframe : ∀ (b : Bench) (whole found : Desk), frame whole →
      SameContext ⟨{ whole.context with vault := b.vault }, b.around⟩ found → frame found := by
    intro b whole found hwhole hkept
    show { found.context with vault := d.context.vault } = d.context
    rw [hkept]
    exact hwhole
  obtain ⟨b, whole, hend, hwhole, rfl⟩ := Paused.CanEnd.of_within _ frame hpart hframe rfl h
  refine ⟨b, hend, ?_⟩
  show { whole.context with vault := b.vault } = { d.context with vault := b.vault }
  rw [← hwhole]

/-- A resolved credential holds handles, and the context is well bound. -/
theorem holdsHandles_of_resolveCredential {id : String} {value : Json} (hd : d.context.WellBound)
    (h : (resolveCredential id d).CanEnd SameContext t (.ok value)) :
    t.context.WellBound ∧ t.context.vault.HoldsHandles value := by
  obtain ⟨b, hend, ht⟩ := of_onVault h
  obtain ⟨hgrows, hhandles⟩ := Bench.holdsHandles_of_resolveCredential hend
  rw [ht]
  exact ⟨hd.withVault hgrows, hhandles⟩

/-- Resolving an external secret preserves. -/
theorem preserves_resolveSecret (key : String) : Preserves (resolveSecret key) := by
  intro d t result hd hend
  obtain ⟨b, hend', ht⟩ := of_onVault hend
  rw [ht]
  exact hd.withVault (Bench.grows_of_resolveSecret hend')

/-- Binding a parameter that is no credential preserves. -/
theorem preserves_define {p : Parameter} (hp : ∀ q, p ≠ .credential q) (value : Json) :
    Preserves (define p value) := by
  refine Preserves.onStore fun c a hc _ => ?_
  exact hc.bind fun q hq => absurd hq (hp q)

/-- Giving a workflow parameter its value preserves. -/
theorem preserves_defineWorkflow (b : WorkflowBinding) : Preserves (defineWorkflow b) := by
  have hdefine : ∀ value, Preserves (define (.workflow b.parameter) value) :=
    preserves_define fun q hq => nomatch hq
  unfold defineWorkflow
  -- A reference to a credential is resolved, and what comes of it are handles. Any other value is
  -- defined as it is.
  by_cases htype : b.parameter.type = .credentialId
  · rw [if_pos htype]
    cases b.value.text? with
    | none => exact .fail _
    | some id =>
      refine Preserves.bind (fun d t value hd hend => ?_) hdefine
      exact (holdsHandles_of_resolveCredential hd hend).1
  · rw [if_neg htype]
    exact hdefine b.value

/-- Binding a workflow parameter preserves. -/
theorem preserves_bindWorkflow (b : WorkflowBinding) : Preserves (bindWorkflow b) := by
  refine Preserves.get fun d => ?_
  by_cases hdefined : d.context.store.isDefined b.parameter.key = true
  · simp only [hdefined, if_true]
    exact (Preserves.report _).bind fun _ => preserves_defineWorkflow b
  · simp only [hdefined]
    exact preserves_defineWorkflow b

/-- Declaring an output parameter preserves. -/
theorem preserves_declareOutput (p : OutputParameter) : Preserves (declareOutput p) := by
  refine Preserves.get fun d => ?_
  by_cases hdefined : d.context.store.isDefined p.key = true
  · simp only [hdefined, if_true]
    exact (Preserves.report _).bind fun _ => .fail _
  · simp only [hdefined]
    exact Preserves.onStore fun _ _ hc _ => hc.define rfl

/-- Finding out which credential a parameter designates changes nothing. -/
theorem state_designated (run : String) (p : CredentialParameter) (s : Store) :
    (designated run p s).state = s := by
  unfold designated
  rw [Action.bind_ok (Action.get_apply s)]
  -- None of the ways to an id writes anything.
  by_cases hid : p.credentialId = ""
  · simp only [hid, if_true]
    rfl
  · simp only [hid, if_false]
    by_cases hdefined : s.isDefined p.credentialId = true
    · simp only [hdefined, if_true]
      cases s.value? p.credentialId with
      | none => rfl
      | some value => cases value <;> rfl
    · simp only [hdefined]
      rfl

/-- Binding a credential parameter preserves. -/
theorem preserves_bindCredential (p : CredentialParameter) : Preserves (bindCredential p) := by
  refine Preserves.get fun d => ?_
  refine Preserves.bind (.onStore fun c a hc _ => ?_) fun id => ?_
  · rw [state_designated]
    exact hc
  · -- The value has to be known for what it is, so this part is not taken to pieces.
    intro d t _ hd hend
    obtain ⟨s, value, hresolve, hdefine⟩ := Paused.CanEnd.of_bind_ok hend
    obtain ⟨hs, hhandles⟩ := holdsHandles_of_resolveCredential hd hresolve
    obtain ⟨rfl, -⟩ := hdefine.of_ended
    exact hs.bind fun _ _ => hhandles

/-- Binding an external secret preserves. -/
theorem preserves_bindExternalSecret (p : ExternalSecretParameter) :
    Preserves (bindExternalSecret p) := by
  have hne : ∀ q, Parameter.externalSecret p ≠ .credential q := fun q hq => nomatch hq
  refine (preserves_resolveSecret p.secretKey).bind fun found => ?_
  cases found with
  | some handle => exact preserves_define hne (.text handle)
  | none =>
    -- Without a secret the parameter stays undefined.
    exact Preserves.get fun d => .report _

/-- Defining a context parameter preserves. -/
theorem preserves_declareContext (p : ContextParameter) : Preserves (declareContext p) := by
  refine Preserves.onStore fun c a hc hresult => ?_
  unfold Store.addContext at hresult ⊢
  -- A source of a wrong kind ends the declaration, and otherwise a context parameter is defined,
  -- which is not bound at the start.
  cases hcheck : Store.checkSource p with
  | error e =>
    rw [hcheck, Action.bind_error (Action.ofExcept_apply _ _)] at hresult
    cases hresult
  | ok u =>
    rw [Action.bind_ok (Action.ofExcept_apply _ _)]
    exact hc.define rfl

/-- What every part preserves is preserved by one after the other. -/
theorem preserves_each {work : β → Program Desk BindingError Unit} (h : ∀ b, Preserves (work b))
    (declared : List β) : Preserves (each work declared) := by
  induction declared with
  | nil => exact .pure ()
  | cons b rest ih => exact (h b).bind fun _ => ih

/-- Binding all declarations of a run preserves. -/
theorem preserves_bindAll (declarations : Declarations) : Preserves (bindAll declarations) := by
  refine (preserves_each preserves_bindWorkflow _).bind fun _ => ?_
  refine (preserves_each preserves_declareOutput _).bind fun _ => ?_
  refine (preserves_each (fun s => ?_) _).bind fun _ => ?_
  · cases s with
    | credential p => exact preserves_bindCredential p
    | externalSecret p => exact preserves_bindExternalSecret p
  refine (preserves_each preserves_declareContext _).bind fun _ => ?_
  exact Preserves.get fun d => .report _

end Desk

end RunParams
