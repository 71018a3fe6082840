import RunParams.Proofs.Context.Changes
import RunParams.Proofs.Context.Keeping

/-!
# What changes do to bound values

What is defined as bound at the start after a change was so before it, whatever the change
(`Store.Follows`, `Context.follows_change`). Registering parameters and adding a context parameter
do not touch its value either (`Store.Keeps`). Recording an output does so at two keys: its own and
the label that its key names. `Store.value?_record_eq_iff` says exactly when the value there is
still what it was.
-/

namespace RunParams

/-- The label that the key of an output names is another key. -/
theorem OutputParameter.key_ne_label {o : OutputParameter} {label : String}
    (h : o.label? = some label) : label ≠ o.key := by
  rintro rfl
  unfold label? at h
  dsimp only at h
  split at h
  next hends =>
    -- The ending is cut off, so the label is shorter than the key.
    have hlabel : o.key.toList.take (o.key.toList.length - ending.toList.length) =
        o.key.toList := by
      rw [← String.toList_ofList (l := o.key.toList.take _)]
      exact congrArg String.toList (Option.some.inj h)
    have hdrop := congrArg List.length hends.1
    have htake := congrArg List.length hlabel
    have hending : ending.toList.length = 7 := rfl
    rw [List.length_drop] at hdrop
    rw [List.length_take] at htake
    omega
  next => cases h

namespace Store

variable {s t u : Store} {p : Parameter} {key : String}

/-- What is bound at the start in the second store was so in the first one, and definitions that
stand under their keys go on to do so. -/
structure Follows (s t : Store) : Prop where
  definition : ∀ key p, t.definition? key = some p → p.isBoundAtStart = true →
    s.definition? key = some p
  keyed : Keyed s → Keyed t

/-- Nothing new is bound when nothing happens. -/
theorem Follows.refl (s : Store) : Follows s s := ⟨fun _ _ hp _ => hp, fun hkeyed => hkeyed⟩

/-- What follows a store that follows another follows that one. -/
theorem Follows.trans (h : Follows s t) (h' : Follows t u) : Follows s u := by
  refine ⟨fun key p hp hbound => ?_, fun hkeyed => h'.keyed (h.keyed hkeyed)⟩
  exact h.definition key p (h'.definition key p hp hbound) hbound

instance : Std.Refl Follows := ⟨Follows.refl⟩

instance : Trans Follows Follows Follows := ⟨Follows.trans⟩

/-- Stores with the same definitions follow each other. -/
theorem follows_of_definitions (h : ∀ key, t.definition? key = s.definition? key) :
    Follows s t := by
  constructor
  · intro key p hp _
    rw [← h key, hp]
  · intro hkeyed key p hp
    exact hkeyed key p ((h key).symm.trans hp)

/-- What is still bound at the start also has the value that it had. -/
structure Keeps (s t : Store) : Prop extends Follows s t where
  value : ∀ key p, t.definition? key = some p → p.isBoundAtStart = true →
    t.value? key = s.value? key

/-- A store keeps what it has. -/
theorem Keeps.refl (s : Store) : Keeps s s := ⟨Follows.refl s, fun _ _ _ _ => rfl⟩

/-- What is kept twice is kept. -/
theorem Keeps.trans (h : Keeps s t) (h' : Keeps t u) : Keeps s u := by
  refine ⟨h.toFollows.trans h'.toFollows, fun key p hp hbound => ?_⟩
  have hp' : t.definition? key = some p := h'.definition key p hp hbound
  calc u.value? key = t.value? key := h'.value key p hp hbound
    _ = s.value? key := h.value key p hp' hbound

instance : Std.Refl Keeps := ⟨Keeps.refl⟩

instance : Trans Keeps Keeps Keeps := ⟨Keeps.trans⟩

/-- A new definition of a context parameter keeps the others. -/
theorem keeps_of_context {c : ContextParameter}
    (hdefinition : t.definition? c.key = some (.context c))
    (hframe : ∀ key, key ≠ c.key → SameAt key t s) : Keeps s t := by
  -- At the key of the context parameter nothing is bound at the start any more.
  have hother : ∀ key p, t.definition? key = some p → p.isBoundAtStart = true → key ≠ c.key := by
    rintro key p hp hbound rfl
    rw [hdefinition] at hp
    cases hp
    cases hbound
  refine ⟨⟨fun key p hp hbound => ?_, fun hkeyed key p hp => ?_⟩, fun key p hp hbound => ?_⟩
  · rw [← (hframe key (hother key p hp hbound)).definition]
    exact hp
  · -- Definitions stay under their keys, the new one included.
    by_cases hkey : key = c.key
    · rw [hkey, hdefinition] at hp
      cases hp
      exact hkey.symm
    · rw [(hframe key hkey).definition] at hp
      exact hkeyed key p hp
  · exact (hframe key (hother key p hp hbound)).value

/-- Registering a parameter keeps what is bound at the start. -/
theorem keeps_enroll (h : s.enroll p = .ok t) : Keeps s t := by
  cases hdue : s.isRegistered p with
  | true =>
    rw [enroll_of_registered hdue] at h
    cases h
    exact Keeps.refl s
  | false =>
    obtain ⟨c, rfl, hok⟩ := (enroll_of_due hdue).mp h
    obtain ⟨henrolled, hframe⟩ := of_withContext_eq_ok hok
    exact keeps_of_context henrolled.definition hframe

/-- Registering the parameters of a step, with success or without, keeps what is bound at the
start. -/
theorem keeps_register (run : String) (parameters : List Parameter) (s : Store) :
    Keeps s (register run parameters s).state :=
  keepsTo_register keeps_enroll run parameters s

/-- Defining a context parameter keeps what is bound at the start. -/
theorem keeps_define (c : ContextParameter) (s : Store) : Keeps s (s.define (.context c)) := by
  refine keeps_of_context (c := c) ?_ fun key hkey => ⟨?_, rfl⟩
  · exact (definition?_define s (.context c) c.key).trans (if_pos rfl)
  · exact (definition?_define s (.context c) key).trans (if_neg hkey)

/-- Adding a context parameter keeps what is bound at the start. -/
theorem keeps_addContext (c : ContextParameter) (s : Store) :
    Keeps s (addContext c s).state :=
  keepsTo_addContext (fun _ => keeps_define c) s

/-! ## Recording an output -/

/-- Delivering to a dependent sets the value of the dependent, if anything. -/
theorem state_deliver (o : OutputParameter) (v : Json) (key : String) (s : Store) :
    (deliver o v key s).state = s ∨ ∃ value, (deliver o v key s).state = s.set key value := by
  unfold deliver
  cases hdelivery : delivery v key with
  -- A delivery sets the value of its key or does nothing; what it logs depends on the value before.
  | nothing => exact Or.inl rfl
  | errors => exact Or.inr ⟨.null, rfl⟩
  | scalar => exact Or.inl rfl
  | value json =>
    dsimp only
    rw [Action.bind_ok (Action.get_apply s)]
    by_cases hold : ((s.value? key).map fun old => !old.isNull).getD false = true
    · simp only [hold, if_true]
      exact Or.inr ⟨json, rfl⟩
    · simp only [hold]
      exact Or.inr ⟨json, rfl⟩

/-- What is delivered to a dependent is seen nowhere else. -/
theorem frame_deliver (o : OutputParameter) (v : Json) (key : String) (s : Store) :
    (deliver o v key s).state.definitions = s.definitions ∧
      ∀ other, other ≠ key → (deliver o v key s).state.value? other = s.value? other := by
  rcases state_deliver o v key s with hstate | ⟨value, hstate⟩
  · rw [hstate]
    exact ⟨rfl, fun _ _ => rfl⟩
  · rw [hstate]
    exact ⟨rfl, fun other hother => (value?_set s key other value).trans (if_neg hother)⟩

/-- Delivering to some dependents changes their values at most. -/
theorem state_deliverAll (o : OutputParameter) (v : Json) (keys : List String) (s : Store) :
    (deliverAll o v keys s).state.definitions = s.definitions ∧
      ∀ other, other ∉ keys → (deliverAll o v keys s).state.value? other = s.value? other := by
  -- One delivery after the other, and none of them touches a key that is not among these.
  induction keys generalizing s with
  | nil => exact ⟨rfl, fun _ _ => rfl⟩
  | cons key rest ih =>
    obtain ⟨hdefinitions, hvalue⟩ := frame_deliver o v key s
    obtain ⟨hdefinitions', hvalue'⟩ := ih (deliver o v key s).state
    unfold deliverAll
    cases hone : deliver o v key s with
    | mk result state events =>
      rw [hone] at hdefinitions hvalue hdefinitions' hvalue'
      cases result with
      | error e =>
        -- The work ends here, and what was delivered stays.
        rw [Action.bind_error hone]
        exact ⟨hdefinitions, fun other hother => hvalue other (List.ne_of_not_mem_cons hother)⟩
      | ok u =>
        rw [Action.bind_ok hone]
        refine ⟨hdefinitions'.trans hdefinitions, fun other hother => ?_⟩
        have hne : other ≠ key := List.ne_of_not_mem_cons hother
        have hrest : other ∉ rest := List.not_mem_of_not_mem_cons hother
        exact (hvalue' other hrest).trans (hvalue other hne)

/-- The store in which an output is also kept under the label of its step. -/
def withAlias (s : Store) (o : OutputParameter) (v : Json) : Store :=
  match o.label? with
  | none => s
  | some label => s.set label (aliased (s.value? label) v)

/-- Keeping an output under a label ends in the store with the alias. -/
theorem recordAlias_eq (o : OutputParameter) (v : Json) (s : Store) :
    ∃ events, recordAlias o v s = ⟨.ok (), s.withAlias o v, events⟩ := by
  unfold recordAlias withAlias
  cases o.label? with
  | none => exact ⟨_, rfl⟩
  | some label =>
    dsimp only
    -- Whether the alias is extended or replaced decides on the report only.
    rw [Action.bind_ok (Action.get_apply s)]
    by_cases hreplaces : replacesAlias (s.value? label) v = true
    · simp only [hreplaces, if_true]
      exact ⟨_, rfl⟩
    · simp only [hreplaces]
      exact ⟨_, rfl⟩

/-- The store in which an output is kept under its key and under the label of its step. -/
def holding (s : Store) (o : OutputParameter) (v : Json) : Store := (s.set o.key v).withAlias o v

/-- The keys of the context parameters among some definitions that have an output as source. -/
def dependentKeysAmong (definitions : List Parameter) (o : OutputParameter) : List String :=
  ((definitions.filterMap Parameter.context?).filter fun c => c.source = ⟨.output, o.key⟩).map
    (·.key)

/-- The keys of the dependents of an output. -/
def dependentKeys (s : Store) (o : OutputParameter) : List String :=
  (s.dependents ⟨.output, o.key⟩).map (·.key)

/-- Recording an output when the definitions are enumerated in some way to find the dependents. -/
def recordAlong (enumerate : Store → List Parameter) (o : OutputParameter) (v : Json) :
    Action Store Unit := do
  if (← Action.get).hasValue o.key then Action.report (.outputOverwritten o.key)
  Action.modify (·.set o.key v)
  recordAlias o v
  let definitions := enumerate (← Action.get)
  deliverAll o v (dependentKeysAmong definitions o)

/-- Recording an output keeps it under its key and its label and then delivers it, however the
definitions are enumerated. -/
theorem recordAlong_eq (enumerate : Store → List Parameter) (o : OutputParameter) (v : Json)
    (s : Store) :
    (recordAlong enumerate o v s).result =
        (deliverAll o v (dependentKeysAmong (enumerate (s.holding o v)) o)
          (s.holding o v)).result ∧
      (recordAlong enumerate o v s).state =
        (deliverAll o v (dependentKeysAmong (enumerate (s.holding o v)) o)
          (s.holding o v)).state := by
  obtain ⟨events, halias⟩ := recordAlias_eq o v (s.set o.key v)
  have hrest : ∀ rest : Action Store Unit, rest = (recordAlias o v >>= fun _ =>
        Action.get >>= fun t => deliverAll o v (dependentKeysAmong (enumerate t) o)) →
      (rest (s.set o.key v)).result =
          (deliverAll o v (dependentKeysAmong (enumerate (s.holding o v)) o)
            (s.holding o v)).result ∧
        (rest (s.set o.key v)).state =
          (deliverAll o v (dependentKeysAmong (enumerate (s.holding o v)) o)
            (s.holding o v)).state := by
    rintro rest rfl
    rw [Action.bind_ok halias]
    dsimp only
    rw [Action.bind_ok (Action.get_apply _)]
    exact ⟨rfl, rfl⟩
  unfold recordAlong
  rw [Action.bind_ok (Action.get_apply s)]
  -- Whether an overwriting is reported makes no difference to the rest.
  by_cases hhas : s.hasValue o.key = true
  · simp only [hhas, if_true]
    rw [Action.bind_ok (Action.report_apply _ s), Action.bind_ok (Action.modify_apply _ s)]
    exact hrest _ rfl
  · simp only [hhas]
    rw [if_neg Bool.false_ne_true, Action.bind_ok (Action.modify_apply _ s)]
    exact hrest _ rfl

/-- Recording an output keeps it under its key and its label and then delivers it. -/
theorem record_eq (o : OutputParameter) (v : Json) (s : Store) :
    (record o v s).result =
        (deliverAll o v ((s.holding o v).dependentKeys o) (s.holding o v)).result ∧
      (record o v s).state =
        (deliverAll o v ((s.holding o v).dependentKeys o) (s.holding o v)).state :=
  recordAlong_eq (·.definitions.values) o v s

/-- An alias is no definition. -/
theorem definitions_withAlias (s : Store) (o : OutputParameter) (v : Json) :
    (s.withAlias o v).definitions = s.definitions := by
  unfold withAlias
  cases o.label? <;> rfl

/-- An alias is the value of the label and of nothing else. -/
theorem value?_withAlias (s : Store) (o : OutputParameter) (v : Json) (key : String) :
    (s.withAlias o v).value? key =
      if o.label? = some key then some (aliased (s.value? key) v) else s.value? key := by
  unfold withAlias
  cases o.label? with
  | none => rw [if_neg (fun h => nomatch h)]
  | some label =>
    dsimp only
    rw [value?_set]
    -- The label is the one key that the alias is written to.
    by_cases hkey : key = label
    · rw [if_pos hkey, if_pos (congrArg some hkey.symm), hkey]
    · rw [if_neg hkey, if_neg (fun h => hkey (Option.some.inj h).symm)]

/-- Keeping an output changes no definition. -/
theorem definitions_holding (s : Store) (o : OutputParameter) (v : Json) :
    (s.holding o v).definitions = s.definitions := by
  unfold holding
  rw [definitions_withAlias, definitions_set]

/-- Recording an output changes no definition. -/
theorem definitions_record (o : OutputParameter) (v : Json) (s : Store) :
    (record o v s).state.definitions = s.definitions := by
  rw [(record_eq o v s).2, (state_deliverAll _ _ _ _).1, definitions_holding]

/-- Recording an output leaves the definition of each key. -/
theorem definition?_record (o : OutputParameter) (v : Json) (s : Store) (key : String) :
    (record o v s).state.definition? key = s.definition? key :=
  congrArg (·.get? key) (definitions_record o v s)

/-- The dependents of an output are the context parameters that are defined with it as source. -/
theorem mem_dependentKeys_iff (hkeyed : Keyed s) (o : OutputParameter) :
    key ∈ s.dependentKeys o ↔
      ∃ c : ContextParameter, s.definition? key = some (.context c) ∧
        c.source = ⟨.output, o.key⟩ := by
  constructor
  · intro h
    -- Among the definitions that have this source, each under its own key.
    obtain ⟨c, hc, rfl⟩ := List.mem_map.mp h
    obtain ⟨hmem, hsource⟩ := List.mem_filter.mp hc
    obtain ⟨p, hp, hpc⟩ := List.mem_filterMap.mp hmem
    obtain ⟨key, hkey⟩ := KeyMap.exists_get?_of_mem_values hp
    have hsame : p.key = key := hkeyed key p hkey
    cases p with
    | context d =>
      cases hpc
      have hkey' : c.key = key := hsame
      rw [← hkey'] at hkey
      exact ⟨c, hkey, of_decide_eq_true hsource⟩
    | _ => cases hpc
  · rintro ⟨c, hc, hsource⟩
    have hmem : Parameter.context c ∈ s.definitions.values :=
      List.mem_map.mpr ⟨(key, .context c), Entries.mem_of_find hc, rfl⟩
    have hdependent : c ∈ s.dependents ⟨.output, o.key⟩ :=
      List.mem_filter.mpr ⟨List.mem_filterMap.mpr ⟨.context c, hmem, rfl⟩,
        decide_eq_true hsource⟩
    exact List.mem_map.mpr ⟨c, hdependent, hkeyed key (.context c) hc⟩

/-- Keeping an output changes no dependent. -/
theorem dependentKeys_holding (s : Store) (o : OutputParameter) (v : Json) :
    (s.holding o v).dependentKeys o = s.dependentKeys o := by
  unfold dependentKeys dependents
  rw [definitions_holding]

/-- What depends on no output has the value with which recording an output begins. -/
theorem value?_record_of_not_mem {o : OutputParameter} (h : key ∉ s.dependentKeys o) (v : Json) :
    (record o v s).state.value? key = (s.holding o v).value? key := by
  rw [(record_eq o v s).2, dependentKeys_holding]
  exact (state_deliverAll o v _ _).2 key h

/-- What is no context parameter has the value with which recording an output begins. -/
theorem value?_record (hkeyed : Keyed s) (hp : s.definition? key = some p)
    (hbound : p.isBoundAtStart = true) (o : OutputParameter) (v : Json) :
    (record o v s).state.value? key = ((s.set o.key v).withAlias o v).value? key := by
  -- Deliveries go to context parameters, and the key is none of theirs.
  refine value?_record_of_not_mem (fun hmem => ?_) v
  obtain ⟨c, hc, -⟩ := (mem_dependentKeys_iff hkeyed o).mp hmem
  rw [hp] at hc
  cases hc
  cases hbound

/-- A value that is bound at the start survives the recording of an output just when its key is not
that of the output, or is and the output is the value, and when its key is not the label of the
step, or is and the value remains the same as an alias. -/
theorem value?_record_eq_iff {bound : Json} (hkeyed : Keyed s) (hp : s.definition? key = some p)
    (hbound : p.isBoundAtStart = true) (hvalue : s.value? key = some bound) (o : OutputParameter)
    (v : Json) :
    (record o v s).state.value? key = some bound ↔
      (key = o.key → v = bound) ∧ (o.label? = some key → aliased (some bound) v = bound) := by
  rw [value?_record hkeyed hp hbound, value?_withAlias, value?_set]
  by_cases hlabel : o.label? = some key
  · -- The label is another key, so the alias is all that is written over the value.
    have hne : key ≠ o.key := OutputParameter.key_ne_label hlabel
    rw [if_pos hlabel, if_neg hne, hvalue, Option.some_inj]
    constructor
    · exact fun h => ⟨fun hsame => absurd hsame hne, fun _ => h⟩
    · exact fun h => h.2 hlabel
  · rw [if_neg hlabel]
    by_cases hsame : key = o.key
    · rw [if_pos hsame, Option.some_inj]
      constructor
      · exact fun h => ⟨fun _ => h, fun h' => absurd h' hlabel⟩
      · exact fun h => h.1 hsame
    · rw [if_neg hsame]
      constructor
      · exact fun _ => ⟨fun h => absurd h hsame, fun h => absurd h hlabel⟩
      · exact fun _ => hvalue

end Store

namespace Context

variable {c : Context}

/-- A change leaves the vault of a context alone. -/
theorem vault_change (c : Context) (change : Change) : (c.change change).vault = c.vault := by
  cases change with
  | register parameters organization =>
    show (register parameters organization c).state.vault = c.vault
    rw [(register_eq c parameters organization).2]
  | addContext p => rfl
  | record o v => rfl
  | set key value => rfl
  | annotate label fields => rfl

/-- What is bound at the start after a change was so before. -/
theorem follows_change (c : Context) (change : Change) :
    c.store.Follows (c.change change).store :=
  keepsTo_change (fun h => (Store.keeps_enroll h).toFollows)
    (fun _ _ _ => Store.follows_of_definitions fun _ => rfl) c change
    fun p _ _ s => (Store.keeps_define p s).toFollows

end Context

end RunParams
