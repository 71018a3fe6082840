import RunParams.Proofs.BoundValues.Changes

/-!
# What the dependents of an output receive

An output that brings a scalar makes the recording fail as soon as there is a dependent
(`Store.record_ok_iff`). Any other output reaches every dependent: `Store.received` is the store
that has received a delivery under a key, and after a successful recording each dependent has its
own one (`Store.value?_record_of_mem`). So what a key has after a recording is determined by the
values before it and by whether the key is a dependent (`Store.value?_record_congr`).
-/

namespace RunParams

/-- The value that a delivery sets, if it sets one. -/
def Delivery.value? : Delivery → Option Json
  | nothing | scalar => none
  | errors => some .null
  | value json => some json

namespace Store

variable {s t : Store} {o : OutputParameter} {v : Json} {key : String}

/-- The store that has received a delivery under a key. -/
def received (s : Store) (key : String) (d : Delivery) : Store :=
  d.value?.elim s (s.set key)

/-- What is received is no definition. -/
@[simp] theorem definitions_received (s : Store) (key : String) (d : Delivery) :
    (s.received key d).definitions = s.definitions := by
  unfold received
  cases d.value? <;> rfl

/-- What is received is the value of the key and of nothing else. -/
@[simp] theorem value?_received (s : Store) (key : String) (d : Delivery) (other : String) :
    (s.received key d).value? other =
      if other = key then d.value?.or (s.value? key) else s.value? other := by
  unfold received
  cases d.value? with
  | none =>
    by_cases hother : other = key
    · rw [if_pos hother, hother]
      rfl
    · rw [if_neg hother]
      rfl
  | some json => exact value?_set s key other json

/-- A delivery shows under a key without a value just when it sets one. -/
theorem received_eq_iff (hvalue : s.value? key = none) (d : Delivery) :
    s.received key d = s ↔ d.value? = none := by
  constructor
  · intro hsame
    have hfound := value?_received s key d key
    rw [hsame, if_pos rfl, hvalue, Option.or_none] at hfound
    exact hfound.symm
  · intro hnone
    unfold received
    rw [hnone]
    rfl

/-! ## Deliveries -/

/-- Of the outputs that bring no scalar, the unfinished ones set nothing. -/
theorem value?_delivery_eq_none_iff (h : delivery v key ≠ .scalar) :
    (delivery v key).value? = none ↔ isUnfinished v = true := by
  unfold delivery at h ⊢
  -- The cases follow the order of the checks: unfinished first, then errors, then the content.
  cases hunfinished : isUnfinished v with
  | true => exact ⟨fun _ => rfl, fun _ => rfl⟩
  | false =>
    rw [hunfinished, if_neg Bool.false_ne_true] at h
    rw [if_neg Bool.false_ne_true]
    cases herrors : hasErrors v with
    | true => exact ⟨fun hnone => (nomatch hnone), fun hfalse => (nomatch hfalse)⟩
    | false =>
      rw [herrors, if_neg Bool.false_ne_true] at h
      rw [if_neg Bool.false_ne_true]
      cases hcontent : content v with
      | object members => exact ⟨fun hnone => (nomatch hnone), fun hfalse => (nomatch hfalse)⟩
      | array items => exact ⟨fun hnone => (nomatch hnone), fun hfalse => (nomatch hfalse)⟩
      | _ =>
        rw [hcontent] at h
        exact absurd rfl h

/-- A delivery that brings no scalar is received. -/
theorem deliver_eq (h : delivery v key ≠ .scalar) (o : OutputParameter) (s : Store) :
    (deliver o v key s).result = .ok () ∧
      (deliver o v key s).state = s.received key (delivery v key) := by
  unfold deliver
  cases hdelivery : delivery v key with
  | nothing => exact ⟨rfl, rfl⟩
  | errors => exact ⟨rfl, rfl⟩
  | scalar => exact absurd hdelivery h
  | value json =>
    dsimp only
    rw [Action.bind_ok (Action.get_apply s)]
    -- An old value is reported when it is replaced, and the report leaves the store as it is.
    by_cases hold : ((s.value? key).map fun old => !old.isNull).getD false = true
    · simp only [hold, if_true]
      exact ⟨rfl, rfl⟩
    · simp only [hold]
      exact ⟨rfl, rfl⟩

/-- A delivery of a scalar fails and changes nothing. -/
theorem deliver_of_scalar (h : delivery v key = .scalar) (o : OutputParameter) (s : Store) :
    deliver o v key s = ⟨.error (.scalarOutput key o.key), s, []⟩ := by
  unfold deliver
  rw [h]
  rfl

/-- Delivering to some dependents fails just when one of them is brought a scalar. -/
theorem deliverAll_ok_iff (keys : List String) (s : Store) :
    (deliverAll o v keys s).result = .ok () ↔ ∀ key ∈ keys, delivery v key ≠ .scalar := by
  induction keys generalizing s with
  | nil => exact ⟨fun _ _ h => absurd h List.not_mem_nil, fun _ => rfl⟩
  | cons key rest ih =>
    unfold deliverAll
    rw [List.forall_mem_cons]
    -- The first dependent of a scalar ends the work.
    by_cases hscalar : delivery v key = .scalar
    · rw [Action.bind_error (deliver_of_scalar hscalar o s)]
      exact ⟨fun h => (by cases h), fun h => absurd hscalar h.1⟩
    · obtain ⟨hresult, -⟩ := deliver_eq hscalar o s
      cases hone : deliver o v key s with
      | mk result state events =>
        rw [hone] at hresult
        cases hresult
        rw [Action.bind_ok hone]
        exact (ih state).trans ⟨fun h => ⟨hscalar, h⟩, fun h => h.2⟩

/-- After a successful delivery each dependent has received its own one. -/
theorem value?_deliverAll {keys : List String} (h : (deliverAll o v keys s).result = .ok ())
    (hmem : key ∈ keys) :
    (deliverAll o v keys s).state.value? key =
      (s.received key (delivery v key)).value? key := by
  induction keys generalizing s with
  | nil => exact absurd hmem List.not_mem_nil
  | cons first rest ih =>
    have hscalar : delivery v first ≠ .scalar :=
      (deliverAll_ok_iff (first :: rest) s).mp h first List.mem_cons_self
    obtain ⟨hresult, hstate⟩ := deliver_eq hscalar o s
    unfold deliverAll at h ⊢
    cases hone : deliver o v first s with
    | mk result state events =>
      rw [hone] at hresult hstate
      cases hresult
      rw [Action.bind_ok hone] at h ⊢
      dsimp only at h hstate ⊢
      by_cases hrest : key ∈ rest
      · -- The key receives its delivery later on, if not for the first time.
        rw [ih h hrest, hstate, value?_received, if_pos rfl, value?_received, value?_received,
          if_pos rfl]
        by_cases hkey : key = first
        · rw [if_pos hkey, hkey, ← Option.or_assoc, Option.or_self]
        · rw [if_neg hkey]
      · have hkey : key = first := (List.mem_cons.mp hmem).resolve_right hrest
        rw [(state_deliverAll o v rest state).2 key hrest, hstate, hkey]

/-! ## Recording -/

/-- A recording fails just when a dependent is brought a scalar. -/
theorem record_ok_iff :
    (record o v s).result = .ok () ↔ ∀ key ∈ s.dependentKeys o, delivery v key ≠ .scalar := by
  rw [(record_eq o v s).1, dependentKeys_holding]
  exact deliverAll_ok_iff _ _

/-- After a successful recording each dependent has received its delivery. -/
theorem value?_record_of_mem (hok : (record o v s).result = .ok ())
    (hmem : key ∈ s.dependentKeys o) :
    (record o v s).state.value? key =
      ((s.holding o v).received key (delivery v key)).value? key := by
  rw [(record_eq o v s).1, dependentKeys_holding] at hok
  rw [(record_eq o v s).2, dependentKeys_holding]
  exact value?_deliverAll hok hmem

/-- Keeping an output has to do with values only. -/
theorem value?_holding_congr (h : s.values = t.values) (key : String) :
    (s.holding o v).value? key = (t.holding o v).value? key := by
  have hvalue : ∀ other, s.value? other = t.value? other := fun other =>
    congrArg (KeyMap.get? · other) h
  unfold holding
  rw [value?_withAlias, value?_withAlias, value?_set, value?_set, hvalue]

/-- The value of a key after a recording is determined by the values before it and by whether the
key is a dependent. -/
theorem value?_record_congr (h : s.values = t.values)
    (hs : (record o v s).result = .ok ()) (ht : (record o v t).result = .ok ())
    (hmem : key ∈ s.dependentKeys o ↔ key ∈ t.dependentKeys o) :
    (record o v s).state.value? key = (record o v t).state.value? key := by
  by_cases hs' : key ∈ s.dependentKeys o
  · rw [value?_record_of_mem hs hs', value?_record_of_mem ht (hmem.mp hs'), value?_received,
      value?_received, value?_holding_congr h]
  · have ht' : key ∉ t.dependentKeys o := fun hdependent => hs' (hmem.mpr hdependent)
    rw [value?_record_of_not_mem hs', value?_record_of_not_mem ht', value?_holding_congr h]

end Store

end RunParams
