import RunParams.Proofs.BoundValues.Binding
import RunParams.Proofs.Context.Changes
import RunParams.Proofs.Program.Phases
import RunParams.Proofs.Registration.Equations

/-!
# What calls on a context keep to

Whatever is done to a context is made up of a few changes of its store: a parameter is enrolled, a
context parameter is defined, a value is set, and while declarations are bound, a parameter is bound
along with its value or an output is defined. A relation that holds from each store to itself, that
may be chained and to which these changes keep is kept to by registrations, additions, records and
bindings as a whole, be they successful or not.

`Action.KeepsTo` says so of work that does not wait (`Store.keepsTo_register`,
`Store.keepsTo_addContext`, `Store.keepsTo_record`) and so of every change of a context
(`Context.keepsTo_change`, `Context.keepsTo_changed`). `Desk.PartsKeepTo` lists what is to be shown
for the binding of declarations, of which every stretch then keeps to the relation
(`Desk.PartsKeepTo.bindAll`).
-/

namespace RunParams

namespace Action

variable {σ α β : Type} {rel : σ → σ → Prop}

/-- From each state an action leads to one that stands in a relation to it. -/
def KeepsTo (rel : σ → σ → Prop) (action : Action σ α) : Prop := ∀ s, rel s (action s).state

/-- An action made of two keeps to a relation when both parts do. -/
theorem KeepsTo.bind [Trans rel rel rel] {action : Action σ α} {next : α → Action σ β}
    (h : action.KeepsTo rel) (hnext : ∀ a, (next a).KeepsTo rel) :
    (action >>= next).KeepsTo rel := by
  intro s
  cases hone : action s with
  | mk result state events =>
    have hfirst : rel s state := by
      have hstate := h s
      rwa [hone] at hstate
    cases result with
    | error e =>
      rw [bind_error hone]
      exact hfirst
    | ok a =>
      rw [bind_ok hone]
      exact Trans.trans hfirst (hnext a state)

section Harmless

variable [Std.Refl rel]

/-- A result at hand changes nothing. -/
theorem keepsTo_ofExcept (result : Except BindingError α) : (ofExcept result).KeepsTo rel :=
  fun s => Std.Refl.refl (r := rel) s

/-- A value at hand changes nothing. -/
theorem keepsTo_pure (a : α) : (pure a : Action σ α).KeepsTo rel := keepsTo_ofExcept (.ok a)

/-- A failure changes nothing. -/
theorem keepsTo_fail (e : BindingError) : (fail e : Action σ α).KeepsTo rel :=
  keepsTo_ofExcept (.error e)

/-- A look at the state changes nothing. -/
theorem keepsTo_get : (get : Action σ σ).KeepsTo rel := fun s => Std.Refl.refl (r := rel) s

/-- A report changes nothing. -/
theorem keepsTo_report (event : Event) : (report event : Action σ Unit).KeepsTo rel :=
  fun s => Std.Refl.refl (r := rel) s

end Harmless

end Action

namespace Store

open RunParams.Action

variable {rel : Store → Store → Prop} [Std.Refl rel] [Trans rel rel rel]

/-- Registering parameters one after the other keeps to what the registration of one does. -/
theorem keepsTo_registerAll (hone : ∀ {s t p}, s.enroll p = .ok t → rel s t) (run : String)
    (parameters : List Parameter) : (registerAll run parameters).KeepsTo rel := by
  induction parameters with
  | nil => exact keepsTo_pure ()
  | cons p rest ih =>
    refine KeepsTo.bind (fun s => ?_) fun _ => ih
    obtain ⟨events, heq⟩ := registerOne_eq run p s
    rw [heq]
    cases hp : s.enroll p with
    | error e => exact Std.Refl.refl (r := rel) s
    | ok t => exact hone hp

/-- Registering the parameters of a step keeps to what the registration of one does. -/
theorem keepsTo_register (hone : ∀ {s t p}, s.enroll p = .ok t → rel s t) (run : String)
    (parameters : List Parameter) : (register run parameters).KeepsTo rel :=
  (keepsTo_ofExcept _).bind fun ordered => keepsTo_registerAll hone run ordered

/-- Adding a context parameter keeps to what the definition of one with a lawful source does. -/
theorem keepsTo_addContext {p : ContextParameter}
    (hdefine : p.source.kind.isContextSource = true → ∀ s, rel s (s.define (.context p))) :
    (addContext p).KeepsTo rel := by
  unfold addContext checkSource
  cases hsource : p.source.kind.isContextSource with
  | false =>
    rw [if_neg Bool.false_ne_true]
    exact (keepsTo_fail _ : (fail _ : Action Store Unit).KeepsTo rel)
  | true =>
    rw [if_pos rfl]
    exact (keepsTo_pure ()).bind fun _ => hdefine hsource

/-- Delivering an output to a dependent keeps to what the setting of a value does. -/
theorem keepsTo_deliver (hset : ∀ key value s, rel s (s.set key value)) (o : OutputParameter)
    (v : Json) (key : String) : (deliver o v key).KeepsTo rel := by
  unfold deliver
  -- Every kind of delivery is made of reports and assignments.
  cases delivery v key with
  | nothing => exact keepsTo_pure ()
  | errors => exact (keepsTo_report _).bind fun _ => hset key .null
  | scalar => exact keepsTo_fail _
  | value value =>
    refine keepsTo_get.bind fun s => ?_
    by_cases hold : ((s.value? key).map fun old => !old.isNull).getD false = true
    · simp only [hold, if_true]
      exact (keepsTo_report _).bind fun _ => hset key value
    · simp only [hold]
      exact hset key value

/-- Delivering an output to some dependents does so too. -/
theorem keepsTo_deliverAll (hset : ∀ key value s, rel s (s.set key value)) (o : OutputParameter)
    (v : Json) (keys : List String) : (deliverAll o v keys).KeepsTo rel := by
  induction keys with
  | nil => exact keepsTo_pure ()
  | cons key rest ih => exact (keepsTo_deliver hset o v key).bind fun _ => ih

/-- Keeping an output under the label of its step does so too. -/
theorem keepsTo_recordAlias (hset : ∀ key value s, rel s (s.set key value)) (o : OutputParameter)
    (v : Json) : (recordAlias o v).KeepsTo rel := by
  unfold recordAlias
  cases o.label? with
  | none => exact keepsTo_pure ()
  | some label =>
    refine keepsTo_get.bind fun s => ?_
    by_cases hreplaces : replacesAlias (s.value? label) v = true
    · simp only [hreplaces, if_true]
      exact (keepsTo_report _).bind fun _ => hset label _
    · simp only [hreplaces]
      exact hset label _

/-- Recording an output keeps to what the setting of values does. -/
theorem keepsTo_record (hset : ∀ key value s, rel s (s.set key value)) (o : OutputParameter)
    (v : Json) : (record o v).KeepsTo rel := by
  have hkept : (Action.modify (·.set o.key v)).KeepsTo rel := hset o.key v
  have hdelivered := keepsTo_deliverAll hset o v
  refine keepsTo_get.bind fun s => ?_
  -- What differs is only whether the output is reported to be replaced.
  by_cases hhas : s.hasValue o.key = true
  · simp only [hhas, if_true]
    exact (keepsTo_report _).bind fun _ => hkept.bind fun _ =>
      (keepsTo_recordAlias hset o v).bind fun _ => keepsTo_get.bind fun _ => hdelivered _
  · simp only [hhas]
    exact hkept.bind fun _ =>
      (keepsTo_recordAlias hset o v).bind fun _ => keepsTo_get.bind fun _ => hdelivered _

end Store

/-- Every change of a context keeps to what enrolling a parameter, setting a value and, if it adds a
context parameter, defining one with a lawful source do to its store. -/
theorem Context.keepsTo_change {rel : Store → Store → Prop} [Std.Refl rel] [Trans rel rel rel]
    (hone : ∀ {s t p}, Store.enroll s p = .ok t → rel s t)
    (hset : ∀ key value s, rel s (s.set key value)) (c : Context) (change : Change)
    (hdefine : ∀ p, change = .addContext p → p.source.kind.isContextSource = true →
      ∀ s, rel s (s.define (.context p))) :
    rel c.store (c.change change).store := by
  cases change with
  | register parameters organization =>
    show rel c.store (Context.register parameters organization c).state.store
    rw [(register_eq c parameters organization).2]
    exact Store.keepsTo_register hone c.run parameters c.store
  | addContext p => exact Store.keepsTo_addContext (hdefine p rfl) c.store
  | record o v => exact Store.keepsTo_record hset o v c.store
  | set key value => exact hset key value c.store
  | annotate label fields => exact Std.Refl.refl (r := rel) c.store

/-- Some changes of a context keep to what each of them does to its store. -/
theorem Context.keepsTo_changed {rel : Store → Store → Prop} [Std.Refl rel] [Trans rel rel rel]
    (c : Context) (changes : List Change)
    (h : ∀ change ∈ changes, ∀ d : Context, rel d.store (d.change change).store) :
    rel c.store (c.changed changes).store := by
  induction changes generalizing c with
  | nil => exact Std.Refl.refl (r := rel) c.store
  | cons change rest ih =>
    have hfirst : rel c.store (c.change change).store := h change List.mem_cons_self c
    have hrest : rel (c.change change).store ((c.change change).changed rest).store :=
      ih (c.change change) fun later hlater => h later (List.mem_cons_of_mem change hlater)
    exact Trans.trans hfirst hrest

namespace Desk

variable {α β : Type} {rel : Desk → Desk → Prop}

/-- What the binding of declarations is made up of keeps to a relation. -/
structure PartsKeepTo (rel : Desk → Desk → Prop) : Prop where
  report : ∀ event, (report event).KeepsTo rel
  credential : ∀ id, (resolveCredential id).KeepsTo rel
  secret : ∀ key, (resolveSecret key).KeepsTo rel
  designate : ∀ run p, (onStore (designated run p)).KeepsTo rel
  define : ∀ p value, p.isBoundAtStart = true → (define p value).KeepsTo rel
  output : ∀ p, (onStore (Action.modify fun s => s.define (.output p))).KeepsTo rel
  context : ∀ p, (declareContext p).KeepsTo rel

namespace PartsKeepTo

open Program

variable [Std.Refl rel] [Trans rel rel rel]

/-- Binding a workflow parameter keeps to the relation. -/
theorem bindWorkflow (h : PartsKeepTo rel) (b : WorkflowBinding) :
    (bindWorkflow b).KeepsTo rel := by
  have hdefine : (defineWorkflow b).KeepsTo rel := by
    unfold defineWorkflow
    by_cases htype : b.parameter.type = .credentialId
    · rw [if_pos htype]
      cases b.value.text? with
      | none => exact keepsTo_fail _
      | some id => exact (h.credential id).bind fun value => h.define _ value rfl
    · rw [if_neg htype]
      exact h.define _ b.value rfl
  refine keepsTo_get.bind fun d => ?_
  by_cases hdefined : d.context.store.isDefined b.parameter.key = true
  · simp only [hdefined, if_true]
    exact (h.report _).bind fun _ => hdefine
  · simp only [hdefined]
    exact hdefine

/-- Declaring an output parameter keeps to the relation. -/
theorem declareOutput (h : PartsKeepTo rel) (p : OutputParameter) :
    (declareOutput p).KeepsTo rel := by
  refine keepsTo_get.bind fun d => ?_
  by_cases hdefined : d.context.store.isDefined p.key = true
  · simp only [hdefined, if_true]
    exact (h.report _).bind fun _ => keepsTo_fail _
  · simp only [hdefined]
    exact h.output p

/-- Binding a secret parameter keeps to the relation. -/
theorem bindSecret (h : PartsKeepTo rel) (p : SecretParameter) : (bindSecret p).KeepsTo rel := by
  cases p with
  | credential p =>
    refine keepsTo_get.bind fun d => (h.designate _ p).bind fun id => ?_
    exact (h.credential id).bind fun value => h.define _ value rfl
  | externalSecret p =>
    refine (h.secret p.secretKey).bind fun found => ?_
    cases found with
    | some handle => exact h.define _ (.text handle) rfl
    | none => exact keepsTo_get.bind fun _ => h.report _

/-- One piece of work after another keeps to what each of them does. -/
theorem each {work : β → Program Desk BindingError Unit} (h : ∀ b, (work b).KeepsTo rel)
    (declared : List β) : (each work declared).KeepsTo rel := by
  induction declared with
  | nil => exact keepsTo_pure ()
  | cons b rest ih => exact (h b).bind fun _ => ih

/-- Binding the declarations of a run keeps to the relation. -/
theorem bindAll (h : PartsKeepTo rel) (declarations : Declarations) :
    (bindAll declarations).KeepsTo rel := by
  refine (each h.bindWorkflow _).bind fun _ => ?_
  refine (each h.declareOutput _).bind fun _ => ?_
  refine (each h.bindSecret _).bind fun _ => ?_
  refine (each h.context _).bind fun _ => ?_
  exact keepsTo_get.bind fun _ => h.report _

end PartsKeepTo

/-- A relation between desks that is one between the stores of their contexts. -/
def InStore (rel : Store → Store → Prop) (d d' : Desk) : Prop :=
  rel d.context.store d'.context.store

section InStore

variable {rel : Store → Store → Prop}

instance [Trans rel rel rel] : Trans (InStore rel) (InStore rel) (InStore rel) where
  trans := fun {d _ e} h h' => (Trans.trans h h' : rel d.context.store e.context.store)

variable [Std.Refl rel]

instance : Std.Refl (InStore rel) := ⟨fun d => Std.Refl.refl (r := rel) d.context.store⟩

/-- Work on the vault is not seen in the store. -/
theorem inStore_onVault (p : Program Bench BindingError α) : (onVault p).KeepsTo (InStore rel) := by
  have hanyhow : p.KeepsTo fun _ _ => True := Program.keepsTo_of_forall (fun _ _ => trivial) p
  exact hanyhow.within fun d _ _ => Std.Refl.refl (r := rel) d.context.store

variable [Trans rel rel rel]

/-- The binding of declarations keeps to what binding a parameter along with its value, defining an
output and defining a context parameter with a lawful source do to the store. -/
theorem partsKeepTo_inStore
    (hbind : ∀ (p : Parameter) value, p.isBoundAtStart = true → ∀ s, rel s (s.bind p value))
    (houtput : ∀ p s, rel s (s.define (.output p)))
    (hcontext : ∀ p : ContextParameter, p.source.kind.isContextSource = true →
      ∀ s, rel s (s.define (.context p))) : PartsKeepTo (InStore rel) where
  report := fun _ d => Std.Refl.refl (r := rel) d.context.store
  credential := fun _ => Program.keepsTo_get.bind fun _ => inStore_onVault _
  secret := fun _ => Program.keepsTo_get.bind fun _ => inStore_onVault _
  designate := fun run p d => by
    show rel d.context.store (designated run p d.context.store).state
    rw [state_designated]
    exact Std.Refl.refl (r := rel) d.context.store
  define := fun p value hbound d => hbind p value hbound d.context.store
  output := fun p d => houtput p d.context.store
  context := fun p d => Store.keepsTo_addContext (hcontext p) d.context.store

end InStore

end Desk

end RunParams
