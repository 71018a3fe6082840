import Mathlib.Data.List.Nodup
import RunParams.Lookup.Memory
import RunParams.Proofs.BoundValues.Binding
import RunParams.World

/-!
# Which declaration has a key in the end

The four kinds of declarations of a run share one map of definitions, and they are bound kind after
kind. What one declaration does to the store when it is bound is little: a workflow parameter and a
credential get a definition and a value, an output and a context parameter a definition only, and
an external secret either both or, if its store has no value, nothing (`Desk.of_bindWorkflow` and
its siblings). `Store.Chain` says so of one declaration after another.

Only outputs look at the keys that are taken. So outputs are bound just when their keys differ from
each other and from the keys of workflow parameters (`Desk.of_declareOutputs`), and what comes after
them takes their keys silently: `Desk.parameter?_of_bindAll` says which outputs keep their
definitions.
-/

namespace RunParams

namespace Store

variable {β : Type} {step : β → Store → Store → Prop} {declared : List β} {s t : Store}
  {key : String}

/-- The key is defined just when a definition stands under it. -/
theorem isDefined_iff : s.isDefined key = true ↔ ∃ p, s.definition? key = some p :=
  Option.isSome_iff_exists

/-- The key is undefined just when no definition stands under it. -/
theorem isDefined_eq_false_iff : s.isDefined key = false ↔ s.definition? key = none :=
  Option.isSome_eq_false_iff.trans Option.isNone_iff_eq_none

/-- Binding a parameter defines its key and no other. -/
@[simp] theorem definition?_bind (s : Store) (p : Parameter) (value : Json) (key : String) :
    (s.bind p value).definition? key = if key = p.key then some p else s.definition? key :=
  definition?_define s p key

/-- A key is defined when it was before or is the key of the parameter. -/
theorem isDefined_define (s : Store) (p : Parameter) (key : String) :
    (s.define p).isDefined key = (s.isDefined key || decide (p.key = key)) := by
  show ((s.define p).definition? key).isSome = ((s.definition? key).isSome || decide (p.key = key))
  rw [definition?_define]
  by_cases hkey : key = p.key
  · rw [if_pos hkey, decide_eq_true hkey.symm, Bool.or_true]
    rfl
  · rw [if_neg hkey, decide_eq_false (Ne.symm hkey), Bool.or_false]

/-- Binding a parameter gives its key a value and no other. -/
@[simp] theorem value?_bind (s : Store) (p : Parameter) (value : Json) (key : String) :
    (s.bind p value).value? key = if key = p.key then some value else s.value? key :=
  value?_set (s.define p) p.key key value

/-- One declaration after another leads from a store to a store. -/
inductive Chain (step : β → Store → Store → Prop) : List β → Store → Store → Prop
  | nil (s : Store) : Chain step [] s s
  | cons {b : β} {rest : List β} {s u t : Store} (first : step b s u)
    (later : Chain step rest u t) : Chain step (b :: rest) s t

/-- What binding a workflow parameter does. -/
def Binds (b : WorkflowBinding) (s t : Store) : Prop :=
  ∃ value, t = s.bind (.workflow b.parameter) value

/-- What declaring an output does, for which its key has to be free. -/
def Declares (o : OutputParameter) (s t : Store) : Prop :=
  s.isDefined o.key = false ∧ t = s.define (.output o)

/-- What binding a secret parameter does: an external secret may be missing. -/
def Secures (p : SecretParameter) (s t : Store) : Prop :=
  (∃ value, t = s.bind p.toParameter value) ∨ ∃ e, p = .externalSecret e ∧ t = s

/-- What declaring a context parameter does. -/
def Defines (c : ContextParameter) (s t : Store) : Prop := t = s.define (.context c)

/-- The outputs can be declared: their keys are free and differ from each other. -/
def Admits (s : Store) (outputs : List OutputParameter) : Prop :=
  (outputs.map (·.key)).Nodup ∧ ∀ o ∈ outputs, s.isDefined o.key = false

/-- A declared output leaves the other keys free. -/
theorem admits_cons {o : OutputParameter} {rest : List OutputParameter}
    (hfree : s.isDefined o.key = false) :
    s.Admits (o :: rest) ↔ (s.define (.output o)).Admits rest := by
  have hdefine : ∀ other : OutputParameter,
      (s.define (.output o)).isDefined other.key = false ↔
        other.key ≠ o.key ∧ s.isDefined other.key = false := by
    intro other
    rw [isDefined_eq_false_iff, isDefined_eq_false_iff, definition?_define]
    -- Defining the first output takes its own key and no other.
    by_cases hsame : other.key = (Parameter.output o).key
    · rw [if_pos hsame]
      exact ⟨fun h => (Option.some_ne_none _ h).elim, fun h => absurd hsame h.1⟩
    · rw [if_neg hsame]
      exact ⟨fun h => ⟨hsame, h⟩, fun h => h.2⟩
  unfold Admits
  rw [List.map_cons, List.nodup_cons, List.forall_mem_cons]
  constructor
  · rintro ⟨⟨hnew, hnodup⟩, -, hrest⟩
    -- A later output is free after the first has been defined, for its key is another one.
    refine ⟨hnodup, fun other hother => (hdefine other).mpr ⟨?_, hrest other hother⟩⟩
    rintro hsame
    exact hnew (hsame ▸ List.mem_map_of_mem hother)
  · rintro ⟨hnodup, hrest⟩
    refine ⟨⟨fun hmem => ?_, hnodup⟩, hfree, fun other hother =>
      ((hdefine other).mp (hrest other hother)).2⟩
    obtain ⟨other, hother, hsame⟩ := List.mem_map.mp hmem
    exact ((hdefine other).mp (hrest other hother)).1 hsame

/-! ## The kinds, one after the other -/

/-- Workflow parameters take exactly their own keys. -/
theorem Chain.isDefined_binds {bindings : List WorkflowBinding} (h : Chain Binds bindings s t)
    (key : String) :
    t.isDefined key = true ↔
      (∃ b ∈ bindings, b.parameter.key = key) ∨ s.isDefined key = true := by
  induction h with
  | nil s => simp
  | @cons b rest s u t first _ ih =>
    -- A binding defines its key whatever value was found for it.
    obtain ⟨value, rfl⟩ := first
    rw [ih, isDefined_iff, isDefined_iff, definition?_bind]
    simp only [List.mem_cons, exists_eq_or_imp]
    by_cases hkey : key = (Parameter.workflow b.parameter).key
    · rw [if_pos hkey]
      exact ⟨fun _ => Or.inl (Or.inl hkey.symm), fun _ => Or.inr ⟨_, rfl⟩⟩
    · rw [if_neg hkey, or_assoc]
      exact ⟨Or.inr, fun h => h.resolve_left (Ne.symm hkey)⟩

/-- Workflow parameters give values to their own keys only. -/
theorem Chain.value?_binds {bindings : List WorkflowBinding} (h : Chain Binds bindings s t)
    (hkey : ∀ b ∈ bindings, b.parameter.key ≠ key) : t.value? key = s.value? key := by
  induction h with
  | nil s => rfl
  | @cons b rest s u t first _ ih =>
    obtain ⟨value, rfl⟩ := first
    obtain ⟨hfirst, hrest⟩ := List.forall_mem_cons.mp hkey
    have hne : key ≠ (Parameter.workflow b.parameter).key := Ne.symm hfirst
    rw [ih hrest, value?_bind, if_neg hne]

/-- Outputs get no values. -/
theorem Chain.value?_declares {outputs : List OutputParameter} (h : Chain Declares outputs s t) :
    t.value? key = s.value? key := by
  induction h with
  | nil s => rfl
  | cons first _ ih =>
    obtain ⟨-, rfl⟩ := first
    exact ih

/-- Outputs leave the definitions that they find. -/
theorem Chain.definition?_declares {outputs : List OutputParameter} {p : Parameter}
    (h : Chain Declares outputs s t) (hp : s.definition? key = some p) :
    t.definition? key = some p := by
  induction h with
  | nil s => exact hp
  | @cons o rest s u t first _ ih =>
    obtain ⟨hfree, rfl⟩ := first
    -- A declared output was free, so it is not the key that is already taken.
    have hne : key ≠ (Parameter.output o).key := by
      intro hsame
      have hnone : s.definition? key = none := hsame ▸ isDefined_eq_false_iff.mp hfree
      rw [hnone] at hp
      cases hp
    exact ih (by rw [definition?_define, if_neg hne, hp])

/-- Every output that is declared is defined. -/
theorem Chain.definition?_output {outputs : List OutputParameter} {o : OutputParameter}
    (h : Chain Declares outputs s t) (ho : o ∈ outputs) :
    t.definition? o.key = some (.output o) := by
  induction h with
  | nil s => cases ho
  | @cons first rest s u t hfirst later ih =>
    rcases List.mem_cons.mp ho with rfl | hrest
    · obtain ⟨-, rfl⟩ := hfirst
      exact later.definition?_declares (by rw [definition?_define]; exact if_pos rfl)
    · exact ih hrest

/-- Secret parameters that are bound take their keys: either the key is as it was before and none
of them is a credential with that key, or one of them has it, along with a value. -/
theorem Chain.secures {secrets : List SecretParameter} (h : Chain Secures secrets s t)
    (key : String) :
    (t.definition? key = s.definition? key ∧ t.value? key = s.value? key ∧
        ∀ p, .credential p ∈ secrets → p.key ≠ key) ∨
      ∃ p ∈ secrets, p.key = key ∧ t.definition? key = some p.toParameter ∧
        t.hasValue key = true := by
  induction h with
  | nil s => exact Or.inl ⟨rfl, rfl, fun p hp => (List.not_mem_nil hp).elim⟩
  | @cons first rest s u t hfirst later ih =>
    have hkey : first.toParameter.key = first.key := by cases first <;> rfl
    rcases ih with ⟨hdefinition, hvalue, hcredentials⟩ | ⟨p, hp, hrest⟩
    · -- The later ones have left the key alone, so what the first one did to it is still there.
      rcases hfirst with ⟨value, rfl⟩ | ⟨e, rfl, rfl⟩
      · rw [definition?_bind, hkey] at hdefinition
        rw [value?_bind, hkey] at hvalue
        by_cases hsame : key = first.key
        · rw [if_pos hsame] at hdefinition hvalue
          refine Or.inr ⟨first, List.mem_cons_self, hsame.symm, hdefinition, ?_⟩
          exact Option.isSome_iff_exists.mpr ⟨value, hvalue⟩
        · rw [if_neg hsame] at hdefinition hvalue
          refine Or.inl ⟨hdefinition, hvalue, fun p hp => ?_⟩
          rcases List.mem_cons.mp hp with rfl | hrest
          · exact fun hsame' => hsame hsame'.symm
          · exact hcredentials p hrest
      · refine Or.inl ⟨hdefinition, hvalue, fun p hp => ?_⟩
        rcases List.mem_cons.mp hp with hfirst | hrest
        · cases hfirst
        · exact hcredentials p hrest
    · -- The last one to take the key is among the later ones, and what the first did is
      -- overwritten.
      exact Or.inr ⟨p, List.mem_cons_of_mem first hp, hrest⟩

/-- Context parameters take their keys and give them no values. -/
theorem Chain.defines {contexts : List ContextParameter} (h : Chain Defines contexts s t)
    (key : String) :
    t.value? key = s.value? key ∧
      ((t.definition? key = s.definition? key ∧ ∀ c ∈ contexts, c.key ≠ key) ∨
        ∃ c ∈ contexts, c.key = key ∧ t.definition? key = some (.context c)) := by
  induction h with
  | nil s => exact ⟨rfl, Or.inl ⟨rfl, fun c hc => (List.not_mem_nil hc).elim⟩⟩
  | @cons first rest s u t hfirst later ih =>
    cases hfirst
    obtain ⟨hvalue, hrest⟩ := ih
    refine ⟨hvalue, ?_⟩
    -- The last declaration of a key decides what it means.
    rcases hrest with ⟨hdefinition, hkeys⟩ | ⟨c, hc, hlast⟩
    · rw [definition?_define] at hdefinition
      by_cases hsame : key = (Parameter.context first).key
      · rw [if_pos hsame] at hdefinition
        exact Or.inr ⟨first, List.mem_cons_self, hsame.symm, hdefinition⟩
      · rw [if_neg hsame] at hdefinition
        exact Or.inl ⟨hdefinition, List.forall_mem_cons.mpr ⟨Ne.symm hsame, hkeys⟩⟩
    · exact Or.inr ⟨c, List.mem_cons_of_mem first hc, hlast⟩

end Store

namespace Desk

open Store

variable {α β : Type} {d t : Desk}

/-- What works on the vault only leaves the store as it is. -/
theorem store_of_onVault {p : Program Bench BindingError α} {r : Except BindingError α}
    (h : (onVault p d).CanEnd SameContext t r) : t.context.store = d.context.store := by
  obtain ⟨b, -, ht⟩ := of_onVault h
  rw [ht]

/-- A workflow parameter that is bound is defined and has a value. -/
theorem of_bindWorkflow (b : WorkflowBinding) (d t : Desk)
    (h : (bindWorkflow b d).CanEnd SameContext t (.ok ())) :
    Binds b d.context.store t.context.store := by
  have hdefine : ∀ d : Desk, (defineWorkflow b d).CanEnd SameContext t (.ok ()) →
      Binds b d.context.store t.context.store := by
    intro d h
    -- A literal value is at hand; an id has to be resolved first.
    unfold defineWorkflow at h
    by_cases htype : b.parameter.type = .credentialId
    · rw [if_pos htype] at h
      cases htext : b.value.text? with
      | none =>
        rw [htext] at h
        cases h.of_ended.2
      | some id =>
        rw [htext] at h
        obtain ⟨s, value, hresolve, hend⟩ := Paused.CanEnd.of_bind_ok h
        obtain ⟨rfl, -⟩ := hend.of_ended
        exact ⟨value, by rw [← store_of_onVault hresolve]; rfl⟩
    · rw [if_neg htype] at h
      obtain ⟨rfl, -⟩ := h.of_ended
      exact ⟨b.value, rfl⟩
  obtain ⟨s, found, hget, hrest⟩ := Paused.CanEnd.of_bind_ok h
  obtain ⟨rfl, hfound⟩ := hget.of_ended
  cases hfound
  by_cases hdefined : s.context.store.isDefined b.parameter.key = true
  · rw [if_pos hdefined] at hrest
    -- The report that a key is taken changes nothing in the context.
    obtain ⟨u, _, hreport, hend⟩ := Paused.CanEnd.of_bind_ok hrest
    obtain ⟨rfl, -⟩ := hreport.of_ended
    have hbinds := hdefine _ hend
    exact hbinds
  · rw [if_neg hdefined] at hrest
    exact hdefine _ hrest

/-- A secret parameter that is bound is defined and has a value, unless it is an external secret
that is missing. -/
theorem of_bindSecret (p : SecretParameter) (d t : Desk)
    (h : (bindSecret p d).CanEnd SameContext t (.ok ())) :
    Secures p d.context.store t.context.store := by
  cases p with
  | credential p =>
    obtain ⟨s, found, hget, hrest⟩ := Paused.CanEnd.of_bind_ok h
    obtain ⟨rfl, hfound⟩ := hget.of_ended
    cases hfound
    obtain ⟨s, id, hid, hrest⟩ := Paused.CanEnd.of_bind_ok hrest
    obtain ⟨rfl, -⟩ := hid.of_ended
    obtain ⟨s, value, hresolve, hend⟩ := Paused.CanEnd.of_bind_ok hrest
    obtain ⟨rfl, -⟩ := hend.of_ended
    refine Or.inl ⟨value, ?_⟩
    have hstore := store_of_onVault hresolve
    rw [state_designated] at hstore
    exact congrArg (fun s : Store => s.bind (.credential p) value) hstore
  | externalSecret p =>
    -- Choosing the id changes no store, so the definition is made in the store as it was.
    obtain ⟨s, found, hresolve, hrest⟩ := Paused.CanEnd.of_bind_ok h
    have hstore := store_of_onVault hresolve
    -- Without a value the key keeps the meaning it had, and this is the other way to end.
    cases found with
    | some handle =>
      obtain ⟨rfl, -⟩ := hrest.of_ended
      exact Or.inl ⟨.text handle,
        congrArg (fun s : Store => s.bind (.externalSecret p) (.text handle)) hstore⟩
    | none =>
      obtain ⟨rfl, -⟩ := hrest.of_ended
      exact Or.inr ⟨p, rfl, hstore⟩

/-- A context parameter that is declared is defined. -/
theorem of_declareContext (c : ContextParameter) (d t : Desk)
    (h : (declareContext c d).CanEnd SameContext t (.ok ())) :
    Defines c d.context.store t.context.store := by
  obtain ⟨rfl, hresult⟩ := h.of_ended
  show (addContext c d.context.store).state = d.context.store.define (.context c)
  unfold addContext at hresult ⊢
  cases hcheck : checkSource c with
  | error e =>
    rw [hcheck, Action.bind_error (Action.ofExcept_apply _ _)] at hresult
    cases hresult
  | ok u =>
    rw [Action.bind_ok (Action.ofExcept_apply _ _)]
    rfl

/-- Declarations that are bound one after the other do to the store what each of them does. -/
theorem chain_of_each {work : β → Program Desk BindingError Unit} {step : β → Store → Store → Prop}
    (hwork : ∀ b d t, (work b d).CanEnd SameContext t (.ok ()) →
      step b d.context.store t.context.store) {declared : List β}
    (h : (each work declared d).CanEnd SameContext t (.ok ())) :
    Chain step declared d.context.store t.context.store := by
  induction declared generalizing d with
  | nil =>
    obtain ⟨rfl, -⟩ := h.of_ended
    exact .nil _
  | cons b rest ih =>
    obtain ⟨s, u, hfirst, hrest⟩ := Paused.CanEnd.of_bind_ok h
    exact .cons (hwork b d s hfirst) (ih hrest)

/-- An output whose key is taken collides. -/
theorem declareOutput_of_isDefined {o : OutputParameter}
    (h : d.context.store.isDefined o.key = true) :
    declareOutput o d =
      .ended { d with around := d.around.logged [.outputKeyCollision d.context.run o.key] }
        (.error (.outputKeyCollision o.key)) := by
  show Paused.bind _ _ = _
  simp only [Program.get_apply, Paused.bind, h, if_true]
  rfl

/-- An output whose key is free is defined. -/
theorem declareOutput_of_free {o : OutputParameter} (h : d.context.store.isDefined o.key = false) :
    declareOutput o d =
      .ended ⟨{ d.context with store := d.context.store.define (.output o) }, d.around.logged []⟩
        (.ok ()) := by
  show Paused.bind _ _ = _
  simp only [Program.get_apply, Paused.bind, h]
  rfl

/-- Outputs are all declared when they can be, and otherwise one of them collides. -/
theorem of_declareOutputs {outputs : List OutputParameter} {r : Except BindingError Unit}
    (h : (each declareOutput outputs d).CanEnd SameContext t r) :
    (d.context.store.Admits outputs ∧ r = .ok () ∧
        Chain Declares outputs d.context.store t.context.store) ∨
      ¬ d.context.store.Admits outputs ∧
        ∃ o ∈ outputs, r = .error (.outputKeyCollision o.key) := by
  induction outputs generalizing d with
  | nil =>
    obtain ⟨rfl, rfl⟩ := h.of_ended
    exact Or.inl ⟨⟨List.nodup_nil, fun o ho => (List.not_mem_nil ho).elim⟩, rfl, .nil _⟩
  | cons o rest ih =>
    have hsteps : (each declareOutput (o :: rest) d) =
        (declareOutput o d).bind fun _ => each declareOutput rest := rfl
    rw [hsteps] at h
    -- An output whose key is taken stops the loop, so then some key is not admitted.
    cases hdefined : d.context.store.isDefined o.key with
    | true =>
      rw [declareOutput_of_isDefined hdefined] at h
      obtain ⟨rfl, rfl⟩ := h.of_ended
      refine Or.inr ⟨fun hadmits => ?_, o, List.mem_cons_self, rfl⟩
      rw [hadmits.2 o List.mem_cons_self] at hdefined
      cases hdefined
    | false =>
      rw [declareOutput_of_free hdefined] at h
      rcases ih h with ⟨hadmits, hr, hchain⟩ | ⟨hadmits, other, hother, hr⟩
      · exact Or.inl ⟨(admits_cons hdefined).mpr hadmits, hr, .cons ⟨hdefined, rfl⟩ hchain⟩
      · exact Or.inr ⟨fun h => hadmits ((admits_cons hdefined).mp h), other,
          List.mem_cons_of_mem o hother, hr⟩

/-- When all declarations of a run are bound, one kind has been bound after the other. -/
theorem chains_of_bindAll {declarations : Declarations}
    (h : (bindAll declarations d).CanEnd SameContext t (.ok ())) :
    ∃ s u v, Chain Binds declarations.bindings d.context.store s ∧
      s.Admits declarations.outputs ∧ Chain Declares declarations.outputs s u ∧
      Chain Secures declarations.secrets u v ∧
      Chain Defines declarations.contexts v t.context.store := by
  obtain ⟨d₁, _, hbindings, h⟩ := Paused.CanEnd.of_bind_ok h
  obtain ⟨d₂, _, houtputs, h⟩ := Paused.CanEnd.of_bind_ok h
  obtain ⟨d₃, _, hsecrets, h⟩ := Paused.CanEnd.of_bind_ok h
  obtain ⟨d₄, ⟨⟩, hcontexts, h⟩ := Paused.CanEnd.of_bind_ok h
  have hdefined : Chain Defines declarations.contexts d₃.context.store d₄.context.store :=
    chain_of_each of_declareContext hcontexts
  obtain ⟨rfl, -⟩ := h.of_ended
  obtain ⟨hadmits, -, hdeclared⟩ | ⟨-, o, -, hr⟩ := of_declareOutputs houtputs
  · exact ⟨d₁.context.store, d₂.context.store, d₃.context.store,
      chain_of_each of_bindWorkflow hbindings, hadmits, hdeclared,
      chain_of_each of_bindSecret hsecrets, hdefined⟩
  · cases hr

/-- When the declarations of a run are bound in a fresh context, the keys of its outputs differ from
each other and from those of its workflow parameters. An output keeps its definition just when no
context parameter and no credential has its key, nor an external secret for which the store had a
value. Otherwise a secret or a context parameter is defined in its place. -/
theorem parameter?_of_bindAll {declarations : Declarations} {settings : ResolverSettings}
    {run : String} {organization : Organization} {createdAt : Nat} {around : Surroundings}
    (h : (bindAll declarations ⟨.fresh settings run organization createdAt, around⟩).CanEnd
      SameContext t (.ok ())) :
    (declarations.outputs.map (·.key)).Nodup ∧
    (∀ o ∈ declarations.outputs, ∀ b ∈ declarations.bindings, b.parameter.key ≠ o.key) ∧
    ∀ o ∈ declarations.outputs,
      (t.context.parameter? o.key = some (.output o) ↔
        (∀ c ∈ declarations.contexts, c.key ≠ o.key) ∧
        (∀ p, .credential p ∈ declarations.secrets → p.key ≠ o.key) ∧
        ((∃ p, .externalSecret p ∈ declarations.secrets ∧ p.key = o.key) →
          t.context.has o.key = false)) ∧
      (t.context.parameter? o.key = some (.output o) ∨
        (∃ p ∈ declarations.secrets, p.key = o.key ∧
          t.context.parameter? o.key = some p.toParameter) ∨
        ∃ c ∈ declarations.contexts, c.key = o.key ∧
          t.context.parameter? o.key = some (.context c)) := by
  obtain ⟨s, u, v, hbinds, ⟨hnodup, hfree⟩, hdeclares, hsecures, hdefines⟩ := chains_of_bindAll h
  -- A binding defines its key before the outputs are declared, so an output under that key would
  -- have been refused.
  have happart : ∀ o ∈ declarations.outputs, ∀ b ∈ declarations.bindings,
      b.parameter.key ≠ o.key := by
    intro o ho b hb hsame
    have hdefined : s.isDefined o.key = true :=
      (hbinds.isDefined_binds o.key).mpr (Or.inl ⟨b, hb, hsame⟩)
    rw [hfree o ho] at hdefined
    cases hdefined
  refine ⟨hnodup, happart, fun o ho => ?_⟩
  -- Before the secrets are bound the output is defined and has no value.
  have hdefinition : u.definition? o.key = some (.output o) := hdeclares.definition?_output ho
  have hvalue : u.value? o.key = none := by
    rw [hdeclares.value?_declares, hbinds.value?_binds (happart o ho)]
    rfl
  have hparameter : t.context.parameter? o.key = t.context.store.definition? o.key := rfl
  have hhas : t.context.has o.key = (v.value? o.key).isSome :=
    congrArg Option.isSome (hdefines.defines o.key).1
  rw [hparameter]
  -- Contexts come last and win over all before; of the secrets the same is true of what is left.
  rcases (hdefines.defines o.key).2 with ⟨hkept, hcontexts⟩ | ⟨c, hc, hsame, hlast⟩
  · rw [hkept]
    rcases hsecures.secures o.key with ⟨hkept, hvalue', hcredentials⟩ | ⟨p, hp, hsame, hlast, hv⟩
    · rw [hkept, hdefinition]
      refine ⟨iff_of_true rfl ⟨hcontexts, hcredentials, fun _ => ?_⟩, Or.inl rfl⟩
      rw [hhas, hvalue', hvalue]
      rfl
    · -- A secret has taken the key, and then the key has a value.
      refine ⟨iff_of_false (fun hkept => ?_) fun ⟨_, hcredentials, hexternal⟩ => ?_,
        Or.inr (Or.inl ⟨p, hp, hsame, hlast⟩)⟩
      · rw [hlast] at hkept
        -- An output has neither kind of definition.
        cases p <;> cases hkept
      · cases p with
        | credential p => exact hcredentials p hp hsame
        | externalSecret p =>
          have hnone : (v.value? o.key).isSome = false := hhas ▸ hexternal ⟨p, hp, hsame⟩
          rw [show (v.value? o.key).isSome = true from hv] at hnone
          cases hnone
  · -- The definition of a context parameter is not one of an output.
    refine ⟨iff_of_false (fun hkept => ?_) fun ⟨hcontexts, _⟩ => hcontexts c hc hsame,
      Or.inr (Or.inr ⟨c, hc, hsame, hlast⟩)⟩
    rw [hlast] at hkept
    cases hkept

/-- An output with a key of its own keeps its definition, also when an external secret was to have
the key but has no value. -/
theorem parameter?_of_bindAll_alone :
    let declarations : Declarations :=
      ⟨[⟨.ofKey "url" .string, .text "https"⟩], [.ofLabel "login"],
        [.ofSource "token" ⟨.output, "login_output"⟩],
        [.externalSecret (.ofSecret "login_output" "k")]⟩
    let around := (World.start .standard (Memory.backend .empty) default).around
    let program := bindAll declarations ⟨.fresh .standard "r" ⟨"o_1", none⟩ 0, around⟩
    let d := (program.alone fun _ d => d).2
    program.CanEnd SameContext d (.ok ()) ∧
      d.context.parameter? "login_output" = some (.output (.ofLabel "login")) := by
  intro declarations around program d
  have hok : (program.alone fun _ d => d).1 = .ok () := by decide +kernel
  have hend : program.CanEnd SameContext d (.ok ()) := by
    rw [← hok]
    exact canEnd_alone program
  obtain ⟨-, -, hkept⟩ := parameter?_of_bindAll hend
  refine ⟨hend, (hkept (.ofLabel "login") List.mem_cons_self).1.mpr ⟨?_, ?_, fun _ => ?_⟩⟩
  · decide
  · intro p hp
    cases List.mem_singleton.mp hp
  · decide +kernel

/-- A credential and a context parameter take the keys of two outputs, and binding them succeeds. -/
theorem outputs_displaced :
    let declarations : Declarations :=
      ⟨[], [.ofLabel "login", .ofLabel "page"], [.ofSource "page_output" ⟨.workflow, "url"⟩],
        [.credential (.ofId "login_output" "cred_1")]⟩
    let around := (World.start .standard (Memory.backend (Memory.empty.addPassword "cred_1" "o_1"
      ⟨"u", "p", none⟩)) default).around
    let program := bindAll declarations ⟨.fresh .standard "r" ⟨"o_1", none⟩ 0, around⟩
    ∃ t, program.CanEnd SameContext t (.ok ()) ∧
      t.context.parameter? "login_output" ≠ some (.output (.ofLabel "login")) ∧
      t.context.parameter? "page_output" ≠ some (.output (.ofLabel "page")) := by
  intro declarations around program
  have hok : (program.alone fun _ d => d).1 = .ok () := by decide +kernel
  have hlogin : ((program.alone fun _ d => d).2.context.parameter? "login_output").map
      Parameter.kind = some .credential := by decide +kernel
  have hpage : ((program.alone fun _ d => d).2.context.parameter? "page_output").map
      Parameter.kind = some .context := by decide +kernel
  refine ⟨(program.alone fun _ d => d).2, ?_, fun hkept => ?_, fun hkept => ?_⟩
  · rw [← hok]
    exact canEnd_alone program
  · rw [hkept] at hlogin
    cases hlogin
  · rw [hkept] at hpage
    cases hpage

end Desk

end RunParams
