import Mathlib.Data.List.Nodup
import RunParams.Context.Register

/-!
# What a registration makes of a store

A context parameter that a store does not have registered yet comes with an equation: its value is
its entry in the value of its source. `Store.Enrolled` is what the registration of such a parameter
achieves at its key, and everywhere else it changes nothing (`Store.of_withContext_eq_ok`). The
converse, `Store.Enrolled.withContext`, is that a parameter whose equation has a solution can be
registered, in any store that agrees with the first one at the key and has the source.

`Store.enroll` and `Store.enrollAll` are what the registration of a parameter, and of one after the
other, does to a store, without the events that it reports.
-/

namespace RunParams

/-- A context parameter takes its value from its source as soon as it is registered. -/
def ContextParameter.Reads (p : ContextParameter) : Prop :=
  p.source.kind = .workflow ∨ p.source.kind = .context

/-- The first parameter does not read the value of the second one. -/
def Parameter.Unread (p q : Parameter) : Prop :=
  ∀ c d, p = .context c → q = .context d → c.Reads → c.source.key ≠ d.key

/-- A kind of source that a context parameter may have is one of three. -/
theorem Kind.isContextSource_iff {kind : Kind} :
    kind.isContextSource = true ↔ kind = .workflow ∨ kind = .context ∨ kind = .output := by
  cases kind <;> decide

/-- A kind of source is an output or is read. -/
theorem ContextParameter.reads_of_ne_output {p : ContextParameter}
    (hsource : p.source.kind.isContextSource = true) (hkind : p.source.kind ≠ .output) :
    p.Reads := by
  rcases Kind.isContextSource_iff.mp hsource with hworkflow | hcontext | houtput
  · exact Or.inl hworkflow
  · exact Or.inr hcontext
  · exact absurd houtput hkind

/-- What is read is no output. -/
theorem ContextParameter.Reads.ne_output {p : ContextParameter} (h : p.Reads) :
    p.source.kind ≠ .output := by
  rcases h with h | h
  · rw [h]; decide
  · rw [h]; decide

/-- What is read may be a source. -/
theorem ContextParameter.Reads.isContextSource {p : ContextParameter} (h : p.Reads) :
    p.source.kind.isContextSource = true := by
  rcases h with h | h
  · rw [h]; rfl
  · rw [h]; rfl

namespace Store

variable {s t u v source : Store} {c : ContextParameter} {p : Parameter} {key : String}

/-! ## Stores that agree at a key -/

/-- Two stores have the same definition and the same value under a key. -/
structure SameAt (key : String) (s t : Store) : Prop where
  definition : s.definition? key = t.definition? key
  value : s.value? key = t.value? key

/-- A store agrees with itself. -/
theorem SameAt.refl (key : String) (s : Store) : SameAt key s s := ⟨rfl, rfl⟩

/-- Agreement goes both ways. -/
theorem SameAt.symm (h : SameAt key s t) : SameAt key t s := ⟨h.definition.symm, h.value.symm⟩

/-- Agreement is passed on. -/
theorem SameAt.trans (h : SameAt key s t) (h' : SameAt key t u) : SameAt key s u :=
  ⟨h.definition.trans h'.definition, h.value.trans h'.value⟩

/-- Stores that agree at every key are equal. -/
theorem eq_of_sameAt (h : ∀ key, SameAt key s t) : s = t :=
  ext_get? (fun key => (h key).definition) fun key => (h key).value

/-- Whether a parameter is registered shows at its key. -/
theorem SameAt.isRegistered_eq (h : SameAt p.key s t) : s.isRegistered p = t.isRegistered p := by
  have hdefined : s.isDefined p.key = t.isDefined p.key := by
    show (s.definition? p.key).isSome = (t.definition? p.key).isSome
    rw [h.definition]
  have hvalue : s.hasValue p.key = t.hasValue p.key := by
    show (s.value? p.key).isSome = (t.value? p.key).isSome
    rw [h.value]
  have hpending : s.isPending p.key = t.isPending p.key := by
    unfold isPending
    rw [h.definition, hvalue]
  unfold isRegistered
  rw [hdefined, hpending]

/-- What is not registered is undefined or waits for its value. -/
theorem isRegistered_eq_false_iff :
    s.isRegistered p = false ↔ s.isDefined p.key = false ∨ s.isPending p.key = true := by
  unfold isRegistered
  cases s.isDefined p.key <;> cases s.isPending p.key <;> decide

/-! ## One parameter -/

/-- The value of a context parameter in `t` is its entry, or null without one, in the object that
`source` has for its source. -/
def TakesEntry (source t : Store) (c : ContextParameter) : Prop :=
  ∃ members, source.value? c.source.key = some (.object members) ∧
    t.value? c.key = some ((Entries.find c.key members).getD .null)

/-- `t` is, at the key of a context parameter, what the registration of the parameter makes of `s`
when it finds its source in `source`. -/
structure Enrolled (s source t : Store) (c : ContextParameter) : Prop where
  isSource : c.source.kind.isContextSource = true
  definition : t.definition? c.key = some (.context c)
  entry : c.Reads → TakesEntry source t c
  /-- A parameter that depends on an output is only defined. -/
  output : c.source.kind = .output → t.value? c.key = s.value? c.key

/-- A parameter with a source of a kind that is none is refused. -/
theorem withContext_of_no_source (h : c.source.kind.isContextSource = false) :
    s.withContext c = .error (.invalidSource c.key c.source.kind.name) := by
  unfold withContext checkSource
  rw [if_neg (Bool.eq_false_iff.mp h)]
  rfl

/-- A parameter that depends on an output is only defined. -/
theorem withContext_of_output (h : c.source.kind = .output) :
    s.withContext c = .ok (s.define (.context c)) := by
  unfold withContext checkSource
  rw [if_pos h, h]
  rfl

/-- Any other parameter is bound to its entry. -/
theorem withContext_of_reads (h : c.Reads) :
    s.withContext c = (s.entryOf c).map (s.bind (.context c)) := by
  unfold withContext checkSource
  rw [if_neg h.ne_output, if_pos h.isContextSource]
  cases s.entryOf c <;> rfl

/-- A context parameter has an entry in its source when the value of the source is an object. -/
theorem entryOf_eq_ok {value : Json} :
    s.entryOf c = .ok value ↔ ∃ members, s.value? c.source.key = some (.object members) ∧
      value = (Entries.find c.key members).getD .null := by
  unfold entryOf
  cases s.value? c.source.key with
  | none => simp
  | some json => cases json <;> simp [eq_comm]

/-- Registering a context parameter enrolls it and changes nothing else. -/
theorem of_withContext_eq_ok (h : s.withContext c = .ok t) :
    Enrolled s s t c ∧ ∀ key, key ≠ c.key → SameAt key t s := by
  cases hsource : c.source.kind.isContextSource with
  | false =>
    rw [withContext_of_no_source hsource] at h
    cases h
  | true =>
    by_cases hkind : c.source.kind = .output
    · rw [withContext_of_output hkind] at h
      cases h
      refine ⟨⟨hsource, ?_, fun hreads => absurd hkind hreads.ne_output, fun _ => rfl⟩, ?_⟩
      · exact (definition?_define s (.context c) c.key).trans (if_pos rfl)
      · exact fun key hkey => ⟨(definition?_define s (.context c) key).trans (if_neg hkey), rfl⟩
    · -- What is read was an object, and the entry that was taken from it is the value.
      have hreads : c.Reads := ContextParameter.reads_of_ne_output hsource hkind
      rw [withContext_of_reads hreads] at h
      cases hentry : s.entryOf c with
      | error e =>
        rw [hentry] at h
        cases h
      | ok value =>
        rw [hentry] at h
        cases h
        obtain ⟨members, hmembers, rfl⟩ := entryOf_eq_ok.mp hentry
        refine ⟨⟨hsource, ?_, fun _ => ⟨members, hmembers, ?_⟩, fun hout => absurd hout hkind⟩, ?_⟩
        · simp [Store.bind, Parameter.key]
        · simp [Store.bind, Parameter.key]
        · exact fun key hkey => ⟨by simp [Store.bind, Parameter.key, hkey],
            by simp [Store.bind, Parameter.key, hkey]⟩

/-- A context parameter can be registered in a store that has, for its source, what another store
enrolls it with, and then the two agree at its key. -/
theorem Enrolled.withContext (h : Enrolled s source t c) (hvalue : SameAt c.key u s)
    (hsource : c.Reads → u.value? c.source.key = source.value? c.source.key) :
    ∃ v, u.withContext c = .ok v ∧ SameAt c.key v t ∧ ∀ key, key ≠ c.key → SameAt key v u := by
  by_cases hkind : c.source.kind = .output
  · -- Only defined, so its value is what it was, and the first two stores agree about that.
    have hok : u.withContext c = .ok (u.define (.context c)) := withContext_of_output hkind
    obtain ⟨henrolled, hframe⟩ := of_withContext_eq_ok hok
    refine ⟨_, hok, ⟨?_, ?_⟩, hframe⟩
    · rw [henrolled.definition, h.definition]
    · rw [henrolled.output hkind, h.output hkind, hvalue.value]
  · -- Read, so the same entry is taken from the same object.
    have hreads : c.Reads := ContextParameter.reads_of_ne_output h.isSource hkind
    obtain ⟨members, hmembers, hentry⟩ := h.entry hreads
    have hu : u.entryOf c = .ok ((Entries.find c.key members).getD .null) :=
      entryOf_eq_ok.mpr ⟨members, (hsource hreads).trans hmembers, rfl⟩
    have hok := withContext_of_reads (s := u) hreads
    rw [hu] at hok
    obtain ⟨henrolled, hframe⟩ := of_withContext_eq_ok hok
    refine ⟨_, hok, ⟨?_, ?_⟩, hframe⟩
    · rw [henrolled.definition, h.definition]
    · rw [hentry]
      simp [Store.bind, Parameter.key]

/-- The store after the registration of a parameter. -/
def enroll (s : Store) (p : Parameter) : Except BindingError Store :=
  if s.isRegistered p then .ok s
  else match p with
    | .context c => s.withContext c
    | p => .error (.unexpectedParameter p.key p.kind.name)

/-- A registered parameter is skipped. -/
theorem enroll_of_registered (h : s.isRegistered p = true) : s.enroll p = .ok s := by
  unfold enroll
  rw [if_pos h]

/-- A parameter that is due can only be a context parameter. -/
theorem enroll_of_due (h : s.isRegistered p = false) :
    s.enroll p = .ok t ↔ ∃ c, p = .context c ∧ s.withContext c = .ok t := by
  unfold enroll
  rw [if_neg (Bool.eq_false_iff.mp h)]
  cases p with
  | context c => simp
  | workflow c => simp
  | output c => simp
  | credential c => simp
  | externalSecret c => simp

/-- A registration changes nothing but the key of its parameter. -/
theorem SameAt.of_enroll (h : s.enroll p = .ok t) (hkey : key ≠ p.key) : SameAt key t s := by
  cases hdue : s.isRegistered p with
  | true =>
    rw [enroll_of_registered hdue] at h
    cases h
    exact SameAt.refl key s
  | false =>
    obtain ⟨c, rfl, hok⟩ := (enroll_of_due hdue).mp h
    exact (of_withContext_eq_ok hok).2 key hkey

/-- A registration changes nothing at the key of a parameter that is registered already. -/
theorem SameAt.of_enroll_of_registered {q : Parameter} (h : s.enroll p = .ok t)
    (hq : s.isRegistered q = true) : SameAt q.key t s := by
  by_cases hkey : q.key = p.key
  · -- The key is taken, so the parameter is skipped.
    have hp : s.isRegistered p = true := by
      unfold isRegistered at hq ⊢
      rwa [hkey] at hq
    rw [enroll_of_registered hp] at h
    cases h
    exact SameAt.refl q.key s
  · exact SameAt.of_enroll h hkey

/-- What is registered stays registered when a parameter is. -/
theorem isRegistered_enroll_of {q : Parameter} (h : s.enroll p = .ok t)
    (hq : s.isRegistered q = true) : t.isRegistered q = true :=
  (SameAt.of_enroll_of_registered h hq).isRegistered_eq.trans hq

/-- The store after the registration of parameters one after the other. -/
def enrollAll (s : Store) (parameters : List Parameter) : Except BindingError Store :=
  parameters.foldlM enroll s

/-- Parameters are enrolled in two parts. -/
theorem enrollAll_append {before after : List Parameter} :
    s.enrollAll (before ++ after) = .ok t ↔
      ∃ u, s.enrollAll before = .ok u ∧ u.enrollAll after = .ok t := by
  unfold enrollAll
  rw [List.foldlM_append]
  cases before.foldlM enroll s with
  | error e => exact ⟨fun h => (nomatch h), fun ⟨_, hu, _⟩ => (nomatch hu)⟩
  | ok u =>
    refine ⟨fun h => ⟨u, rfl, h⟩, ?_⟩
    rintro ⟨_, hu, h⟩
    cases hu
    exact h

/-- Parameters are enrolled when the first one is and the others are after it. -/
theorem enrollAll_cons {rest : List Parameter} :
    s.enrollAll (p :: rest) = .ok t ↔ ∃ u, s.enroll p = .ok u ∧ u.enrollAll rest = .ok t := by
  have hone : s.enrollAll [p] = s.enroll p := bind_pure _
  rw [← List.singleton_append, enrollAll_append, hone]

/-- Registering a parameter has the result and leaves the store of `enroll`. -/
theorem registerOne_eq (run : String) (p : Parameter) (s : Store) :
    ∃ events, registerOne run p s = match s.enroll p with
      | .ok t => ⟨.ok (), t, events⟩
      | .error e => ⟨.error e, s, events⟩ := by
  unfold registerOne enroll
  rw [Action.bind_ok (Action.get_apply s)]
  cases s.isRegistered p with
  | true => exact ⟨_, rfl⟩
  | false =>
    cases p with
    | context c =>
      cases hok : s.withContext c with
      | ok t => exact ⟨[], by simp [hok, Action.bind_ok (Action.ofExcept_apply _ _)]⟩
      | error e => exact ⟨[], by simp [hok, Action.bind_error (Action.ofExcept_apply _ _)]⟩
    | _ => exact ⟨_, rfl⟩

/-- Registering parameters succeeds when `enrollAll` does, and leaves its store. -/
theorem registerAll_of_ok {run : String} {parameters : List Parameter}
    (h : s.enrollAll parameters = .ok t) :
    (registerAll run parameters s).result = .ok () ∧
      (registerAll run parameters s).state = t := by
  induction parameters generalizing s with
  | nil =>
    cases h
    exact ⟨rfl, rfl⟩
  | cons p rest ih =>
    obtain ⟨u, hp, hrest⟩ := enrollAll_cons.mp h
    obtain ⟨events, hone⟩ := registerOne_eq run p s
    rw [hp] at hone
    unfold registerAll
    rw [Action.bind_ok hone]
    exact ih hrest

/-- Registering parameters fails when `enrollAll` does. -/
theorem registerAll_of_error {run : String} {parameters : List Parameter} {e : BindingError}
    (h : s.enrollAll parameters = .error e) :
    (registerAll run parameters s).result = .error e := by
  induction parameters generalizing s with
  | nil => cases h
  -- What fails first in one fails first in the other, since both go along the list.
  | cons p rest ih =>
    obtain ⟨events, hone⟩ := registerOne_eq run p s
    unfold enrollAll at h ih
    rw [List.foldlM_cons] at h
    unfold registerAll
    cases hp : s.enroll p with
    | error e' =>
      rw [hp] at h hone
      cases h
      rw [Action.bind_error hone]
    | ok u =>
      rw [hp] at h hone
      rw [Action.bind_ok hone]
      exact ih h

/-- Without an order of registration nothing is registered. -/
theorem register_of_order_error {run : String} {parameters : List Parameter} {e : BindingError}
    (h : Parameter.registrationOrder parameters = .error e) :
    (register run parameters s).result = .error e := by
  unfold register
  rw [h, Action.bind_error (Action.ofExcept_apply _ _)]

/-- With an order of registration the parameters are registered in it. -/
theorem register_of_order (run : String) (s : Store) {parameters ordered : List Parameter}
    (h : Parameter.registrationOrder parameters = .ok ordered) :
    (register run parameters s).result = (registerAll run ordered s).result ∧
      (register run parameters s).state = (registerAll run ordered s).state := by
  unfold register
  rw [h, Action.bind_ok (Action.ofExcept_apply _ _)]
  exact ⟨rfl, rfl⟩

/-- The parameters of a step are registered when they have an order of registration and can be
enrolled in it, and only then. -/
theorem register_ok_iff {run : String} {parameters : List Parameter} :
    (register run parameters s).result = .ok () ∧ (register run parameters s).state = t ↔
      ∃ ordered, Parameter.registrationOrder parameters = .ok ordered ∧
        s.enrollAll ordered = .ok t := by
  -- Without an order nothing is registered; with one, the parameters are enrolled one by one.
  cases horder : Parameter.registrationOrder parameters with
  | error e => simp [register_of_order_error horder]
  | ok ordered =>
    obtain ⟨hresult, hstate⟩ := register_of_order run s horder
    rw [hresult, hstate]
    cases hall : s.enrollAll ordered with
    | error e => simp [registerAll_of_error hall, hall]
    | ok u =>
      have hdone : (registerAll run ordered s).result = .ok () ∧
          (registerAll run ordered s).state = u := registerAll_of_ok hall
      simp [hdone, hall]

end Store

/-- Registering parameters in a context registers them in its store. -/
theorem Context.register_eq (c : Context) (parameters : List Parameter) (organization : String) :
    (Context.register parameters organization c).result =
        (Store.register c.run parameters c.store).result ∧
      (Context.register parameters organization c).state =
        { c with store := (Store.register c.run parameters c.store).state } := by
  unfold Context.register
  rw [Action.bind_ok (Action.get_apply c)]
  -- The organization is looked at only for a warning.
  by_cases horganization : organization = c.organization.id
  · rw [if_neg (not_not.mpr horganization)]
    exact ⟨rfl, rfl⟩
  · rw [if_pos horganization]
    exact ⟨rfl, rfl⟩

end RunParams
