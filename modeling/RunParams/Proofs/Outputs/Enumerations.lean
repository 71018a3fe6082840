import Mathlib.Data.List.Perm.Basic
import RunParams.Proofs.Outputs.Deliveries

/-!
# Recording an output, however the definitions are enumerated

The dependents of an output are found by going through the definitions in no particular order. The
order does not show: what an output brings its dependents is a scalar for all of them or for none
(`delivery_eq_scalar_iff`), so it reaches all of them or none, and each one on its own
(`value?_deliverAll_eq`).

`Store.Recorded` says what a recording leaves behind, and `Store.recordAlong_outcome` that every
enumeration leaves it behind, and when the recording fails. Only which dependent the error names is
left to the enumeration.
-/

namespace RunParams

/-- The label that a key names is the key without its ending, unless it is empty. -/
theorem OutputParameter.label?_eq_some_iff {o : OutputParameter} {label : String} :
    o.label? = some label ↔ label ≠ "" ∧ o.key = label ++ ending := by
  constructor
  · intro h
    unfold label? at h
    dsimp only at h
    split at h
    next hends =>
      obtain ⟨hdrop, hlong⟩ := hends
      -- What is cut off is the ending, so what remains before it is the label.
      have hlabel : label.toList =
          o.key.toList.take (o.key.toList.length - ending.toList.length) := by
        rw [← Option.some.inj h, String.toList_ofList]
      constructor
      · rintro rfl
        have hlength := congrArg List.length hlabel
        rw [List.length_take] at hlength
        simp only [String.toList_empty, List.length_nil] at hlength
        omega
      · refine String.toList_inj.mp ?_
        calc o.key.toList
            = o.key.toList.take (o.key.toList.length - ending.toList.length) ++
                o.key.toList.drop (o.key.toList.length - ending.toList.length) :=
              (List.take_append_drop _ _).symm
          _ = label.toList ++ ending.toList := by rw [hdrop, hlabel]
          _ = (label ++ ending).toList := String.toList_append.symm
    next => cases h
  · rintro ⟨hne, hkey⟩
    have hsame : o.label? = (ofLabel label).label? := by
      unfold label?
      rw [hkey]
      rfl
    rw [hsame]
    exact label?_ofLabel label hne

namespace Store

variable {s t : Store} {o : OutputParameter} {v : Json} {key : String}

/-! ## What an output says of its step -/

/-- An output reports what has been extracted along with a status other than completed. -/
def Unfinished (v : Json) : Prop :=
  ∃ members extracted status, v = .object members ∧
    Entries.find extractedKey members = some extracted ∧
    Entries.find "status" members = some status ∧ status ≠ .text completed

/-- An output reports errors that count as present. -/
def Faulty (v : Json) : Prop :=
  ∃ members errors, v = .object members ∧ Entries.find "errors" members = some errors ∧
    errors.isTruthy = true

/-- A value has no entries: it is neither an object nor a list. -/
def Scalar (v : Json) : Prop :=
  (∀ members, v ≠ .object members) ∧ ∀ items, v ≠ .array items

/-- A value has a member just if it is an object that holds it. -/
theorem member?_eq_some_iff {member : Json} :
    v.member? key = some member ↔
      ∃ members, v = .object members ∧ Entries.find key members = some member := by
  -- Only objects have entries.
  cases v with
  | object members =>
    constructor
    · exact fun h => ⟨members, rfl, h⟩
    · rintro ⟨_, hmembers, h⟩
      cases hmembers
      exact h
  | null | bool _ | number _ | text _ | array _ =>
    refine iff_of_false nofun ?_
    rintro ⟨_, hmembers, -⟩
    cases hmembers

/-- A value is the text completed just if its text is. -/
theorem text?_eq_iff {status : Json} :
    status.text? = some completed ↔ status = .text completed := by
  cases status with
  | text word =>
    constructor
    · exact fun h => congrArg Json.text (Option.some.inj h)
    · intro h
      cases h
      rfl
  | null | bool _ | number _ | array _ | object _ => exact ⟨nofun, nofun⟩

/-- The test for an unfinished output. -/
theorem isUnfinished_iff : isUnfinished v = true ↔ Unfinished v := by
  unfold isUnfinished
  -- Each of the two entries may be missing, and then nothing says that the output is unfinished.
  cases hextracted : v.member? extractedKey with
  | none =>
    refine iff_of_false Bool.false_ne_true ?_
    rintro ⟨members, extracted, _, rfl, hfound, -⟩
    rw [Json.member?_object, hfound] at hextracted
    cases hextracted
  | some extracted =>
    obtain ⟨members, rfl, hfind⟩ := member?_eq_some_iff.mp hextracted
    cases hstatus : (Json.object members).member? "status" with
    | none =>
      refine iff_of_false Bool.false_ne_true ?_
      rintro ⟨_, _, _, hmembers, -, hfound, -⟩
      cases hmembers
      rw [Json.member?_object, hfound] at hstatus
      cases hstatus
    | some status =>
      show decide (status.text? ≠ some completed) = true ↔ _
      rw [decide_eq_true_iff, Ne, text?_eq_iff]
      constructor
      · exact fun h => ⟨members, extracted, status, rfl, hfind, hstatus, h⟩
      · rintro ⟨_, _, _, hmembers, -, hfound, hother⟩
        cases hmembers
        rw [Json.member?_object, hfound] at hstatus
        cases hstatus
        exact hother

/-- The test for errors. -/
theorem hasErrors_iff : hasErrors v = true ↔ Faulty v := by
  unfold hasErrors
  cases herrors : v.member? "errors" with
  | none =>
    refine iff_of_false Bool.false_ne_true ?_
    rintro ⟨members, _, rfl, hfound, -⟩
    rw [Json.member?_object, hfound] at herrors
    cases herrors
  | some errors =>
    obtain ⟨members, rfl, hfind⟩ := member?_eq_some_iff.mp herrors
    show errors.isTruthy = true ↔ _
    constructor
    · exact fun h => ⟨members, errors, rfl, hfind, h⟩
    · rintro ⟨_, _, hmembers, hfound, htruthy⟩
      cases hmembers
      rw [hfind] at hfound
      cases hfound
      exact htruthy

/-! ## Deliveries in any order -/

/-- A step that is not finished brings its dependents nothing. -/
theorem delivery_of_unfinished (h : Unfinished v) (key : String) : delivery v key = .nothing :=
  if_pos (isUnfinished_iff.mpr h)

/-- A finished step with errors brings its dependents the errors. -/
theorem delivery_of_faulty (hfinished : ¬ Unfinished v) (h : Faulty v) (key : String) :
    delivery v key = .errors := by
  unfold delivery
  rw [if_neg (isUnfinished_iff.not.mpr hfinished), if_pos (hasErrors_iff.mpr h)]

/-- Of an object a dependent gets its entry, or null. -/
theorem delivery_of_object {members : List (String × Json)} (hfinished : ¬ Unfinished v)
    (hsound : ¬ Faulty v) (h : content v = .object members) (key : String) :
    delivery v key = .value ((Entries.find key members).getD .null) := by
  unfold delivery
  rw [if_neg (isUnfinished_iff.not.mpr hfinished), if_neg (hasErrors_iff.not.mpr hsound), h]

/-- Of a list a dependent gets all. -/
theorem delivery_of_list {items : List Json} (hfinished : ¬ Unfinished v) (hsound : ¬ Faulty v)
    (h : content v = .array items) (key : String) :
    delivery v key = .value (.array items) := by
  unfold delivery
  rw [if_neg (isUnfinished_iff.not.mpr hfinished), if_neg (hasErrors_iff.not.mpr hsound), h]

/-- An output brings a scalar to all dependents or to none. -/
theorem delivery_eq_scalar_iff (key : String) :
    delivery v key = .scalar ↔ ¬ Unfinished v ∧ ¬ Faulty v ∧ Scalar (content v) := by
  -- In the order of the checks, since each of them is made only if those before have let pass.
  by_cases hunfinished : Unfinished v
  · rw [delivery_of_unfinished hunfinished]
    exact iff_of_false nofun fun h => h.1 hunfinished
  · by_cases hfaulty : Faulty v
    · rw [delivery_of_faulty hunfinished hfaulty]
      exact iff_of_false nofun fun h => h.2.1 hfaulty
    · cases hcontent : content v with
      | object members =>
        rw [delivery_of_object hunfinished hfaulty hcontent]
        exact iff_of_false nofun fun h => h.2.2.1 members rfl
      | array items =>
        rw [delivery_of_list hunfinished hfaulty hcontent]
        exact iff_of_false nofun fun h => h.2.2.2 items rfl
      | null | bool _ | number _ | text _ =>
        have hscalar : delivery v key = .scalar := by
          unfold delivery
          rw [if_neg (isUnfinished_iff.not.mpr hunfinished),
            if_neg (hasErrors_iff.not.mpr hfaulty), hcontent]
        exact iff_of_true hscalar ⟨hunfinished, hfaulty, nofun, nofun⟩

/-- A delivery fails at the first dependent or at none, and names a dependent. -/
theorem deliverAll_eq_error {keys : List String} {e : BindingError}
    (h : (deliverAll o v keys s).result = .error e) :
    ∃ key ∈ keys, e = .scalarOutput key o.key := by
  induction keys generalizing s with
  | nil => cases h
  | cons first rest ih =>
    by_cases hscalar : delivery v first = .scalar
    · unfold deliverAll at h
      rw [Action.bind_error (deliver_of_scalar hscalar o s)] at h
      exact ⟨first, List.mem_cons_self, (Except.error.inj h).symm⟩
    · obtain ⟨hresult, -⟩ := deliver_eq hscalar o s
      unfold deliverAll at h
      cases hone : deliver o v first s with
      | mk result state events =>
        rw [hone] at hresult
        cases hresult
        rw [Action.bind_ok hone] at h
        obtain ⟨key, hkey, he⟩ := ih h
        exact ⟨key, List.mem_cons_of_mem first hkey, he⟩

/-- Each dependent has received its delivery, and nothing else has changed. -/
theorem value?_deliverAll_eq (keys : List String) (s : Store) (key : String) :
    (deliverAll o v keys s).state.value? key =
      if key ∈ keys then (delivery v key).value?.or (s.value? key) else s.value? key := by
  by_cases hmem : key ∈ keys
  · rw [if_pos hmem]
    -- A delivery is scalar for all keys or for none.
    by_cases hscalar : delivery v key = .scalar
    · -- Then it is one for the first dependent, where the work ends.
      rw [hscalar]
      cases keys with
      | nil => rfl
      | cons first rest =>
        have hfirst : delivery v first = .scalar :=
          (delivery_eq_scalar_iff first).mpr ((delivery_eq_scalar_iff key).mp hscalar)
        unfold deliverAll
        rw [Action.bind_error (deliver_of_scalar hfirst o s)]
        rfl
    · have hok : (deliverAll o v keys s).result = .ok () :=
        (deliverAll_ok_iff keys s).mpr fun other _ hother =>
          hscalar ((delivery_eq_scalar_iff key).mpr ((delivery_eq_scalar_iff other).mp hother))
      rw [value?_deliverAll hok hmem, value?_received, if_pos rfl]
  · rw [if_neg hmem]
    exact (state_deliverAll o v keys s).2 key hmem

/-- Deliveries to the same dependents leave the same store behind, whatever their order. -/
theorem state_deliverAll_congr {keys others : List String} (h : ∀ key, key ∈ keys ↔ key ∈ others)
    (s : Store) : (deliverAll o v keys s).state = (deliverAll o v others s).state := by
  refine ext_get? (fun key => ?_) fun key => ?_
  · have hdefinitions :=
      (state_deliverAll o v keys s).1.trans (state_deliverAll o v others s).1.symm
    exact congrArg (·.get? key) hdefinitions
  · rw [value?_deliverAll_eq, value?_deliverAll_eq]
    simp only [h key]

/-! ## Recording -/

/-- The value of a key once an output is kept under its own key and, as an alias, under the label
that the key names. -/
def held (s : Store) (o : OutputParameter) (v : Json) (key : String) : Option Json :=
  if key ≠ "" ∧ o.key = key ++ OutputParameter.ending then some (aliased (s.value? key) v)
  else if key = o.key then some v
  else s.value? key

/-- What the recording of an output leaves behind. -/
structure Recorded (s : Store) (o : OutputParameter) (v : Json) (t : Store) : Prop where
  definitions : t.definitions = s.definitions
  /-- What is no dependent has the output, the alias or what it had. -/
  others : ∀ key, key ∉ s.dependentKeys o → t.value? key = s.held o v key
  /-- A step that is not finished brings its dependents nothing. -/
  unfinished : Unfinished v → ∀ key ∈ s.dependentKeys o, t.value? key = s.held o v key
  /-- Errors make the dependents null. -/
  faulty : ¬ Unfinished v → Faulty v → ∀ key ∈ s.dependentKeys o, t.value? key = some .null
  /-- From an object each dependent gets its entry, or null. -/
  entry : ¬ Unfinished v → ¬ Faulty v → ∀ members, content v = .object members →
    ∀ key ∈ s.dependentKeys o, t.value? key = some ((Entries.find key members).getD .null)
  /-- Of a list each dependent gets all. -/
  list : ¬ Unfinished v → ¬ Faulty v → ∀ items, content v = .array items →
    ∀ key ∈ s.dependentKeys o, t.value? key = some (.array items)
  /-- Anything else does not reach the dependents. -/
  scalar : ¬ Unfinished v → ¬ Faulty v → Scalar (content v) →
    ∀ key ∈ s.dependentKeys o, t.value? key = s.held o v key

/-- The store with which the deliveries begin. -/
theorem value?_holding (s : Store) (o : OutputParameter) (v : Json) (key : String) :
    (s.holding o v).value? key = s.held o v key := by
  unfold holding held
  rw [value?_withAlias, value?_set]
  by_cases hlabel : o.label? = some key
  · rw [if_pos hlabel, if_pos (OutputParameter.label?_eq_some_iff.mp hlabel),
      if_neg (OutputParameter.key_ne_label hlabel)]
  · rw [if_neg hlabel, if_neg (OutputParameter.label?_eq_some_iff.not.mp hlabel)]

/-- What is kept of an output leaves a key alone that is neither its own nor the label. -/
theorem held_of_ne {s : Store} {o : OutputParameter} {v : Json} {key : String}
    (hkey : key ≠ o.key) (hlabel : o.label? ≠ some key) :
    s.held o v key = s.value? key := by
  unfold held
  rw [if_neg (OutputParameter.label?_eq_some_iff.not.mp hlabel), if_neg hkey]

/-- The output is kept under its own key. -/
theorem held_key {s : Store} {o : OutputParameter} {v : Json} : s.held o v o.key = some v := by
  unfold held
  rw [if_neg, if_pos rfl]
  rintro ⟨hne, hsame⟩
  exact OutputParameter.key_ne_label (OutputParameter.label?_eq_some_iff.mpr ⟨hne, hsame⟩) rfl

/-- Under the label the alias is kept. -/
theorem held_label {s : Store} {o : OutputParameter} {v : Json} {label : String}
    (h : o.label? = some label) :
    s.held o v label = some (aliased (s.value? label) v) :=
  if_pos (OutputParameter.label?_eq_some_iff.mp h)

/-- The values after a recording: each dependent has received its delivery. -/
theorem value?_record_eq (s : Store) (o : OutputParameter) (v : Json) (key : String) :
    (record o v s).state.value? key =
      if key ∈ s.dependentKeys o then (delivery v key).value?.or (s.held o v key)
      else s.held o v key := by
  rw [(record_eq o v s).2, dependentKeys_holding, value?_deliverAll_eq, value?_holding]

/-- What a recording leaves behind. -/
theorem recorded_record (s : Store) (o : OutputParameter) (v : Json) :
    Recorded s o v (record o v s).state where
  definitions := definitions_record o v s
  others key hkey := by rw [value?_record_eq, if_neg hkey]
  unfinished h key hkey := by
    rw [value?_record_eq, if_pos hkey, delivery_of_unfinished h]
    rfl
  faulty hfinished h key hkey := by
    rw [value?_record_eq, if_pos hkey, delivery_of_faulty hfinished h]
    rfl
  entry hfinished hsound members h key hkey := by
    rw [value?_record_eq, if_pos hkey, delivery_of_object hfinished hsound h]
    rfl
  list hfinished hsound items h key hkey := by
    rw [value?_record_eq, if_pos hkey, delivery_of_list hfinished hsound h]
    rfl
  scalar hfinished hsound h key hkey := by
    rw [value?_record_eq, if_pos hkey,
      (delivery_eq_scalar_iff key).mpr ⟨hfinished, hsound, h⟩]
    rfl

/-- However the definitions are enumerated, recording an output leaves the same store behind. It
fails just if there is a dependent, the output is finished and without errors and holds a scalar,
and the error names the output and one of the dependents. -/
theorem recordAlong_outcome {enumerate : Store → List Parameter}
    (henumerate : ∀ t, (enumerate t).Perm t.definitions.values) (s : Store) (o : OutputParameter)
    (v : Json) :
    (recordAlong enumerate o v s).state = (record o v s).state ∧
    Recorded s o v (recordAlong enumerate o v s).state ∧
    ((∃ e, (recordAlong enumerate o v s).result = .error e) ↔
      s.dependentKeys o ≠ [] ∧ ¬ Unfinished v ∧ ¬ Faulty v ∧ Scalar (content v)) ∧
    ∀ e, (recordAlong enumerate o v s).result = .error e →
      ∃ key ∈ s.dependentKeys o, e = .scalarOutput key o.key := by
  obtain ⟨hresult, hstate⟩ := recordAlong_eq enumerate o v s
  have hperm : (dependentKeysAmong (enumerate (s.holding o v)) o).Perm (s.dependentKeys o) := by
    rw [← dependentKeys_holding s o v]
    exact (((henumerate _).filterMap _).filter _).map _
  have hsame : (recordAlong enumerate o v s).state = (record o v s).state := by
    rw [hstate, (record_eq o v s).2, dependentKeys_holding]
    -- The state after a delivery depends on which keys are dependents, not on their order.
    exact state_deliverAll_congr (fun _ => hperm.mem_iff) _
  have hrecorded : Recorded s o v (recordAlong enumerate o v s).state := by
    rw [hsame]
    exact recorded_record s o v
  refine ⟨hsame, hrecorded, ?_, fun e he => ?_⟩
  · -- A scalar fails at the first dependent in whatever order, so there is an error exactly if
    -- there is a dependent.
    have hok := deliverAll_ok_iff (o := o) (v := v)
      (dependentKeysAmong (enumerate (s.holding o v)) o) (s.holding o v)
    rw [← hresult] at hok
    constructor
    · rintro ⟨e, he⟩
      rw [hresult] at he
      obtain ⟨key, hkey, -⟩ := deliverAll_eq_error he
      refine ⟨List.ne_nil_of_mem (hperm.subset hkey), ?_⟩
      by_contra hnone
      have hall : ∀ key, delivery v key ≠ .scalar := fun key hscalar =>
        hnone ((delivery_eq_scalar_iff key).mp hscalar)
      rw [← hresult, hok.mpr fun key _ => hall key] at he
      cases he
    · rintro ⟨hsome, hscalar⟩
      obtain ⟨key, hkey⟩ := List.exists_mem_of_ne_nil _ hsome
      cases hcase : (recordAlong enumerate o v s).result with
      | error e => exact ⟨e, rfl⟩
      | ok u =>
        exact absurd ((delivery_eq_scalar_iff key).mpr hscalar)
          (hok.mp hcase key (hperm.symm.subset hkey))
  · rw [hresult] at he
    obtain ⟨key, hkey, hnamed⟩ := deliverAll_eq_error he
    exact ⟨key, hperm.subset hkey, hnamed⟩

/-- A text does not reach its two dependents, which are found in reverse. -/
theorem recordAlong_outcome_reversed :
    (∀ t : Store, t.definitions.values.reverse.Perm t.definitions.values) ∧
    ∃ e, (recordAlong (·.definitions.values.reverse) (.ofLabel "extract") (.text "none")
      ((Store.empty.define (.context (.ofSource "email" ⟨.output, "extract_output"⟩))).define
        (.context (.ofSource "phone" ⟨.output, "extract_output"⟩)))).result = .error e := by
  have henumerate : ∀ t : Store, t.definitions.values.reverse.Perm t.definitions.values :=
    fun _ => List.reverse_perm _
  have hunfinished : ¬ Unfinished (.text "none") := by
    rintro ⟨_, _, _, hmembers, -⟩
    cases hmembers
  have hfaulty : ¬ Faulty (.text "none") := by
    rintro ⟨_, _, hmembers, -⟩
    cases hmembers
  have hscalar : Scalar (content (.text "none")) := ⟨nofun, nofun⟩
  have hdependents : dependentKeys
      ((Store.empty.define (.context (.ofSource "email" ⟨.output, "extract_output"⟩))).define
        (.context (.ofSource "phone" ⟨.output, "extract_output"⟩))) (.ofLabel "extract") ≠ [] := by
    decide
  exact ⟨henumerate, (recordAlong_outcome henumerate _ _ _).2.2.1.mpr
    ⟨hdependents, hunfinished, hfaulty, hscalar⟩⟩

end Store

end RunParams
