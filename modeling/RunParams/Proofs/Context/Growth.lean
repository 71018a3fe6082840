import Mathlib.Logic.Relation
import RunParams.Lookup.Memory
import RunParams.Proofs.Context.Keeping
import RunParams.World

/-!
# What a context never loses

A context is worked on in calls, one after the other: its declarations are bound, to the end or up
to a wait at which the binding is abandoned, or a change is made, be it successful or not
(`Context.Becomes`). What calls do to the store of the context is to let it grow (`Store.GrowsTo`):
no definition and no value disappears, although either may be replaced.

The store of a context that nothing was done to is supplied: definitions stand under their keys, and
what is bound at the start has a value (`Store.Supplied`). Its context parameters have sources of a
kind that may be one (`Store.Sourced`). Growing stores stay so, hence this holds in every context
that calls lead to (`Context.kept_by_calls`).
-/

namespace RunParams

/-- What is bound at the start is of one of three kinds. -/
theorem Parameter.isBoundAtStart_iff {p : Parameter} :
    p.isBoundAtStart = true ↔
      p.kind = .workflow ∨ p.kind = .credential ∨ p.kind = .externalSecret := by
  cases p <;> simp [Parameter.isBoundAtStart, Parameter.kind]

namespace Store

variable {s t u : Store} {p : Parameter} {key : String}

/-- Definitions stand under their keys, and what is bound at the start has a value. -/
structure Supplied (s : Store) : Prop where
  keyed : Keyed s
  valued : ∀ key p, s.definition? key = some p → p.isBoundAtStart = true →
    (s.value? key).isSome = true

/-- Context parameters have sources of a kind that may be one. -/
def Sourced (s : Store) : Prop :=
  ∀ key p, s.definition? key = some (.context p) → p.source.kind.isContextSource = true

/-- What is defined stays defined, what has a value goes on to have one, and what has been asked of
the definitions is kept. -/
structure GrowsTo (s t : Store) : Prop where
  defined : ∀ key, s.isDefined key = true → t.isDefined key = true
  valued : ∀ key, s.hasValue key = true → t.hasValue key = true
  supplied : s.Supplied → t.Supplied
  sourced : s.Sourced → t.Sourced

/-- The empty store is supplied, and no context parameter in it lacks a lawful source: it has no
definitions. -/
theorem supplied_empty : empty.Supplied ∧ empty.Sourced := by
  have hnone : ∀ key, empty.definition? key = none := fun _ => rfl
  refine ⟨⟨fun key p hp => ?_, fun key p hp _ => ?_⟩, fun key p hp => ?_⟩ <;>
  · rw [hnone] at hp
    cases hp

/-- A store grows when nothing happens. -/
theorem GrowsTo.refl (s : Store) : s.GrowsTo s :=
  ⟨fun _ h => h, fun _ h => h, fun h => h, fun h => h⟩

/-- Growth adds up. -/
theorem GrowsTo.trans (h : s.GrowsTo t) (h' : t.GrowsTo u) : s.GrowsTo u where
  defined := fun key hkey => h'.defined key (h.defined key hkey)
  valued := fun key hkey => h'.valued key (h.valued key hkey)
  supplied := fun hs => h'.supplied (h.supplied hs)
  sourced := fun hs => h'.sourced (h.sourced hs)

instance : Std.Refl GrowsTo := ⟨GrowsTo.refl⟩

instance : Trans GrowsTo GrowsTo GrowsTo := ⟨GrowsTo.trans⟩

/-- A store grows when a value is set. -/
theorem growsTo_set (key : String) (value : Json) (s : Store) : s.GrowsTo (s.set key value) := by
  have hvalued : ∀ other, s.hasValue other = true → (s.set key value).hasValue other = true := by
    intro other hother
    show ((s.set key value).value? other).isSome = true
    rw [value?_set]
    by_cases hsame : other = key
    · rw [if_pos hsame]
      rfl
    · rw [if_neg hsame]
      exact hother
  refine ⟨fun _ h => h, hvalued, fun hs => ⟨hs.keyed, fun other p hp hbound => ?_⟩, fun hs => hs⟩
  exact hvalued other (hs.valued other p hp hbound)

/-- A store grows when a parameter is defined, if it has the value that such a parameter should have
and the kind of source that a context parameter should have. -/
theorem growsTo_define (hbound : p.isBoundAtStart = true → s.hasValue p.key = true)
    (hsource : ∀ c, p = .context c → c.source.kind.isContextSource = true) :
    s.GrowsTo (s.define p) := by
  -- At the key of the parameter stands the parameter, and elsewhere what stood there.
  have hdefinition : ∀ key q, (s.define p).definition? key = some q →
      key = p.key ∧ q = p ∨ s.definition? key = some q := by
    intro key q hq
    rw [definition?_define] at hq
    by_cases hkey : key = p.key
    · rw [if_pos hkey] at hq
      exact Or.inl ⟨hkey, (Option.some.inj hq).symm⟩
    · rw [if_neg hkey] at hq
      exact Or.inr hq
  constructor
  · intro key hkey
    show ((s.define p).definition? key).isSome = true
    rw [definition?_define]
    -- At its own key the definition may change, but there is one.
    by_cases hsame : key = p.key
    · rw [if_pos hsame]
      rfl
    · rw [if_neg hsame]
      exact hkey
  · exact fun _ h => h
  · intro hs
    refine ⟨hs.keyed.define p, fun key q hq hq' => ?_⟩
    rcases hdefinition key q hq with ⟨rfl, rfl⟩ | hold
    · exact hbound hq'
    · exact hs.valued key q hold hq'
  · intro hs key c hc
    rcases hdefinition key _ hc with ⟨-, hsame⟩ | hold
    · exact hsource c hsame.symm
    · exact hs key c hold

/-- A store grows when a parameter is bound along with its value. -/
theorem growsTo_bind (hsource : ∀ c, p = .context c → c.source.kind.isContextSource = true)
    (value : Json) (s : Store) : s.GrowsTo (s.bind p value) := by
  have hset : s.GrowsTo (s.set p.key value) := growsTo_set p.key value s
  have hvalue : (s.set p.key value).hasValue p.key = true := by
    show ((s.set p.key value).value? p.key).isSome = true
    rw [value?_set, if_pos rfl]
    rfl
  have hdefine : (s.set p.key value).GrowsTo ((s.set p.key value).define p) :=
    growsTo_define (fun _ => hvalue) hsource
  exact hset.trans hdefine

/-- A store grows when a context parameter with a lawful source is defined. -/
theorem growsTo_define_context {c : ContextParameter}
    (hsource : c.source.kind.isContextSource = true) (s : Store) :
    s.GrowsTo (s.define (.context c)) := by
  refine growsTo_define (fun hbound => (nomatch hbound)) fun d hd => ?_
  cases hd
  exact hsource

/-- A store grows when a context parameter is registered. -/
theorem growsTo_withContext {c : ContextParameter} (h : s.withContext c = .ok t) :
    s.GrowsTo t := by
  cases hsource : c.source.kind.isContextSource with
  | false =>
    rw [withContext_of_no_source hsource] at h
    cases h
  | true =>
    -- A parameter that reads an output waits for it; any other has its value at once.
    by_cases hkind : c.source.kind = .output
    · rw [withContext_of_output hkind] at h
      cases h
      exact growsTo_define_context hsource s
    · rw [withContext_of_reads (ContextParameter.reads_of_ne_output hsource hkind)] at h
      cases hentry : s.entryOf c with
      | error e =>
        rw [hentry] at h
        cases h
      | ok value =>
        rw [hentry] at h
        cases h
        refine growsTo_bind (fun d hd => ?_) value s
        cases hd
        exact hsource

/-- A store grows when a parameter is enrolled. -/
theorem growsTo_enroll (h : s.enroll p = .ok t) : s.GrowsTo t := by
  cases hdue : s.isRegistered p with
  | true =>
    rw [enroll_of_registered hdue] at h
    cases h
    exact GrowsTo.refl s
  | false =>
    obtain ⟨c, rfl, hok⟩ := (enroll_of_due hdue).mp h
    exact growsTo_withContext hok

end Store

namespace Context

open Store

/-- The store of a context grows with every change. -/
theorem growsTo_change (c : Context) (change : Change) :
    c.store.GrowsTo (c.change change).store :=
  keepsTo_change growsTo_enroll growsTo_set c change fun _ _ => growsTo_define_context

/-- The store of a context grows with any number of changes. -/
theorem growsTo_changed (c : Context) (changes : List Change) :
    c.store.GrowsTo (c.changed changes).store :=
  keepsTo_changed c changes fun change _ d => growsTo_change d change

/-- The store of a context grows in every stretch of the binding of declarations. -/
theorem growsTo_bindAll (declarations : Declarations) :
    (Desk.bindAll declarations).KeepsTo (Desk.InStore GrowsTo) := by
  have hbind : ∀ (p : Parameter) value, p.isBoundAtStart = true →
      ∀ s : Store, s.GrowsTo (s.bind p value) := by
    intro p value hbound s
    refine growsTo_bind (fun c hc => ?_) value s
    rw [hc] at hbound
    cases hbound
  have houtput : ∀ (p : OutputParameter) (s : Store), s.GrowsTo (s.define (.output p)) :=
    fun p s => growsTo_define (fun hbound => (nomatch hbound)) fun c hc => (nomatch hc)
  have hparts : Desk.PartsKeepTo (Desk.InStore GrowsTo) :=
    Desk.partsKeepTo_inStore hbind houtput fun _ => growsTo_define_context
  exact hparts.bindAll declarations

/-- What one call makes of a context that nobody else works on meanwhile: declarations are bound, to
the end or until the call is abandoned at a wait, or a change is made. -/
inductive Becomes : Context → Context → Prop
  | bind {c : Context} (declarations : Declarations) (around : Surroundings) {d : Desk}
    (h : (Desk.bindAll declarations ⟨c, around⟩).CanStop Desk.SameContext d) : Becomes c d.context
  | change (c : Context) (change : Change) : Becomes c (c.change change)

/-- What any number of calls make of a context. -/
def Reaches : Context → Context → Prop := Relation.ReflTransGen Becomes

/-- The store of a context grows with every call. -/
theorem Becomes.growsTo {c d : Context} (h : c.Becomes d) : c.store.GrowsTo d.store := by
  cases h with
  | bind declarations around hstop =>
    have hkept := growsTo_bindAll declarations ⟨c, around⟩
    refine hkept.of_canStop (fun d d' hsame => ?_) hstop
    show d.context.store.GrowsTo d'.context.store
    rw [show d'.context = d.context from hsame]
    exact GrowsTo.refl _
  | change change => exact growsTo_change c change

/-- The store of a context grows with any number of calls. -/
theorem Reaches.growsTo {c d : Context} (h : c.Reaches d) : c.store.GrowsTo d.store := by
  induction h with
  | refl => exact GrowsTo.refl c.store
  | tail _ hlast ih => exact ih.trans hlast.growsTo

/-- In every context to which calls have led from a new one, whatever vault that was given, and be
they successful, failed or abandoned at a wait, definitions stand under their keys, each key that is
defined as a workflow parameter, a credential parameter or an external secret has a value, and the
source of each context parameter is of the kind workflow, context or output. Wherever more calls
lead, each key that was defined is defined, and each one that had a value has one. -/
theorem kept_by_calls (settings : ResolverSettings) (run : String) (organization : Organization)
    (createdAt : Nat) (vault : Vault) {c later : Context}
    (hc : Reaches { fresh settings run organization createdAt with vault } c)
    (hlater : c.Reaches later) :
    (∀ key p, c.parameter? key = some p → p.key = key ∧
      (p.kind = .workflow ∨ p.kind = .credential ∨ p.kind = .externalSecret →
        c.has key = true) ∧
      ∀ q, p = .context q →
        q.source.kind = .workflow ∨ q.source.kind = .context ∨ q.source.kind = .output) ∧
    ∀ key, (c.hasParameter key = true → later.hasParameter key = true) ∧
      (c.has key = true → later.has key = true) ∧
      ∀ value, c.get key = .ok value → ∃ value', later.get key = .ok value' := by
  have hfirst := hc.growsTo
  have hsupplied : c.store.Supplied := hfirst.supplied supplied_empty.1
  have hsourced : c.store.Sourced := hfirst.sourced supplied_empty.2
  have hgrows := hlater.growsTo
  -- What holds of a context was brought about by the first calls, and what later calls keep is a
  -- matter of growth.
  constructor
  · intro key p hp
    refine ⟨hsupplied.keyed key p hp, fun hkind => ?_, ?_⟩
    · exact hsupplied.valued key p hp (Parameter.isBoundAtStart_iff.mpr hkind)
    · rintro q rfl
      exact Kind.isContextSource_iff.mp (hsourced key q hp)
  · intro key
    refine ⟨hgrows.defined key, hgrows.valued key, fun value hvalue => ?_⟩
    have hhas : c.store.hasValue key = true := by
      show (c.store.value? key).isSome = true
      rw [get_eq_ok_iff.mp hvalue]
      rfl
    obtain ⟨value', hvalue'⟩ := Option.isSome_iff_exists.mp (hgrows.valued key hhas)
    exact ⟨value', get_eq_ok_iff.mpr hvalue'⟩

/-- A binding that is abandoned while a credential is fetched leaves the workflow parameter that was
bound before, and a registration that fails at its second parameter does not take it away. -/
theorem kept_by_calls_abandoned :
    let declarations : Declarations :=
      ⟨[⟨.ofKey "profile" .json, .object [("email", .text "ada@acme.org")]⟩,
        ⟨.ofKey "login" .credentialId, .text "cred_1"⟩], [], [], []⟩
    let slow : Memory := { Memory.empty with credentialLatency := ⟨5000000⟩ }
    let around := (World.start .standard slow.backend default).around
    let first := fresh .standard "run" ⟨"acme", none⟩ 0
    let c := (Desk.bindAll declarations ⟨first, around⟩).state.context
    let step := [Parameter.context (.ofSource "email" ⟨.workflow, "profile"⟩),
      .context (.ofSource "street" ⟨.workflow, "address"⟩)]
    let later := c.change (.register step "acme")
    first.Reaches c ∧ c.Reaches later ∧ c.hasParameter "login" = false ∧
      (register step "acme" c).result = .error (.notRegistered "address") ∧
      (∃ value, c.get "profile" = .ok value) ∧ ∃ value, later.get "profile" = .ok value := by
  intro declarations slow around first c step later
  have hc : first.Reaches c := .single (.bind declarations around (.here _))
  have hlater : c.Reaches later := .single (.change c _)
  have hhas : (c.store.value? "profile").isSome = true := by decide +kernel
  obtain ⟨value, hvalue⟩ := Option.isSome_iff_exists.mp hhas
  have hkept := (kept_by_calls .standard "run" ⟨"acme", none⟩ 0 first.vault hc hlater).2 "profile"
  have hget : c.get "profile" = .ok value := get_eq_ok_iff.mpr hvalue
  refine ⟨hc, hlater, by decide +kernel, by decide +kernel, ⟨value, hget⟩, hkept.2.2 value hget⟩

end Context

end RunParams
