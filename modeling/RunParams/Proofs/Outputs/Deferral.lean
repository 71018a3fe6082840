import RunParams.Lookup.Memory
import RunParams.Proofs.Outputs.Deliveries
import RunParams.World

/-!
# Registering a dependent before or after its output is recorded

A context parameter that depends on an output is only defined by its registration: the output is
delivered to the dependents that are there when it is recorded, and to no later ones. The two orders
therefore differ by that delivery and by nothing else (`Context.deferred_until_recorded`). They
agree just when the output is unfinished, for then it brings its dependents nothing.

The delivery to one dependent has no influence on the others. So the proof compares the recording in
a store with that in the same store with one more dependent, key by key: the keys other than that of
the new dependent are dependents of both stores or of neither (`Store.mem_dependentKeys_define`).
-/

namespace RunParams

namespace Store

variable {s : Store} {o : OutputParameter} {p : ContextParameter} {v : Json}

/-- The definition of a dependent adds its key to those of the dependents. -/
theorem mem_dependentKeys_define (hkeyed : Keyed s) (hsource : p.source = ⟨.output, o.key⟩)
    (key : String) :
    key ∈ (s.define (.context p)).dependentKeys o ↔ key = p.key ∨ key ∈ s.dependentKeys o := by
  rw [mem_dependentKeys_iff (hkeyed.define _), mem_dependentKeys_iff hkeyed, definition?_define]
  by_cases hkey : key = (Parameter.context p).key
  · rw [if_pos hkey]
    exact ⟨fun _ => Or.inl hkey, fun _ => ⟨p, rfl, hsource⟩⟩
  · rw [if_neg hkey]
    exact ⟨Or.inr, fun h => h.resolve_left hkey⟩

/-- Registering an undefined dependent of an output defines it. -/
theorem register_dependent (hsource : p.source = ⟨.output, o.key⟩)
    (hundefined : s.definition? p.key = none) (run : String) :
    (register run [.context p] s).result = .ok () ∧
      (register run [.context p] s).state = s.define (.context p) := by
  have hkind : p.source.kind = .output := congrArg Reference.kind hsource
  have htier : (Parameter.context p).tier = .direct := by
    show (if p.source.kind = .context then Tier.chained else Tier.direct) = .direct
    rw [hkind]
    rfl
  have horder : Parameter.registrationOrder [.context p] = .ok [.context p] := by
    unfold Parameter.registrationOrder Parameter.ofTier
    simp only [List.filter_cons, htier, List.filter_nil]
    rfl
  have hdue : s.isRegistered (.context p) = false :=
    isRegistered_eq_false_iff.mpr (Or.inl (congrArg Option.isSome hundefined))
  have henroll : s.enrollAll [.context p] = .ok (s.define (.context p)) := by
    have hone : s.enroll (.context p) = .ok (s.define (.context p)) :=
      (enroll_of_due hdue).mpr ⟨p, rfl, withContext_of_output hkind⟩
    unfold enrollAll
    rw [List.foldlM_cons, hone]
    rfl
  -- A single parameter that is due is a tier of its own, so the order is not in question.
  unfold register
  rw [horder, Action.bind_ok (Action.ofExcept_apply _ _)]
  exact registerAll_of_ok henroll

/-- Recording an output with one more dependent does what it does without the dependent, and
delivers to the dependent. -/
theorem record_define (hkeyed : Keyed s) (hsource : p.source = ⟨.output, o.key⟩)
    (hundefined : s.definition? p.key = none) (hvalue : s.value? p.key = none)
    (hkey : p.key ≠ o.key) (hlabel : o.label? ≠ some p.key)
    (hok : (record o v (s.define (.context p))).result = .ok ()) :
    (record o v s).result = .ok () ∧ (record o v s).state.value? p.key = none ∧
      (record o v (s.define (.context p))).state =
        ((record o v s).state.define (.context p)).received p.key (delivery v p.key) := by
  have hmem := mem_dependentKeys_define hkeyed hsource
  have hfirst : (record o v s).result = .ok () := record_ok_iff.mpr fun key hdependent =>
    record_ok_iff.mp hok key ((hmem key).mpr (Or.inr hdependent))
  -- The key of the dependent is not touched by a recording that does not know the dependent.
  have hnone : (s.holding o v).value? p.key = none := by
    unfold holding
    rw [value?_withAlias, if_neg hlabel, value?_set, if_neg hkey, hvalue]
  have hstill : (record o v s).state.value? p.key = none := by
    rw [value?_record_of_not_mem ?_ v, hnone]
    intro hdependent
    obtain ⟨d, hd, -⟩ := (mem_dependentKeys_iff hkeyed o).mp hdependent
    rw [hundefined] at hd
    cases hd
  -- The two stores define the same keys; of the values only that of the dependent can differ.
  refine ⟨hfirst, hstill, ext_get? (fun key => ?_) fun key => ?_⟩
  · show _ = (((record o v s).state.define (.context p)).received p.key _).definitions.get? key
    rw [definition?_record, definitions_received]
    show _ = ((record o v s).state.define (.context p)).definition? key
    rw [definition?_define, definition?_define, definition?_record]
  · rw [value?_received, value?_define, value?_define]
    -- The dependent receives in both orders what stands under its key, once from the recording
    -- itself.
    by_cases hsame : key = p.key
    · rw [if_pos hsame, hsame, hstill,
        value?_record_of_mem hok ((hmem p.key).mpr (Or.inl rfl)), value?_received, if_pos rfl,
        value?_holding_congr (values_define s (.context p)), hnone]
    · rw [if_neg hsame]
      refine value?_record_congr (values_define s (.context p)) hok hfirst ?_
      exact (hmem key).trans ⟨fun h => h.resolve_left hsame, Or.inr⟩

end Store

namespace Context

variable {c : Context} {o : OutputParameter} {p : ContextParameter} {v : Json}
  {organization : String}

/-- An output is delivered to a dependent that is registered when the output is recorded, and not to
one that is registered afterwards. For a dependent that is new to a context whose definitions stand
under their keys, and that is not the key or the label of the output, both orders succeed when the
recording with the dependent does. Recording first leaves the dependent without a value. Registering
first ends in the same context, but with the value, if any, that the output brings the dependent; so
the orders agree just when the output is unfinished. -/
theorem deferred_until_recorded (hkeyed : c.store.Keyed) (hsource : p.source = ⟨.output, o.key⟩)
    (hundefined : c.parameter? p.key = none) (hvalue : c.has p.key = false)
    (hkey : p.key ≠ o.key) (hlabel : o.label? ≠ some p.key)
    (hok : (recordOutput o v (register [.context p] organization c).state).result = .ok ()) :
    let early := (recordOutput o v (register [.context p] organization c).state).state
    let late := (register [.context p] organization (recordOutput o v c).state).state
    ((register [.context p] organization c).result = .ok () ∧
      (recordOutput o v c).result = .ok () ∧
      (register [.context p] organization (recordOutput o v c).state).result = .ok ()) ∧
    late.has p.key = false ∧
    early = { late with store := late.store.received p.key (Store.delivery v p.key) } ∧
    (early = late ↔ Store.isUnfinished v = true) := by
  intro early late
  have hnone : c.store.value? p.key = none :=
    Option.isSome_eq_false_iff.mp hvalue |> Option.isNone_iff_eq_none.mp
  obtain ⟨hregister, hregistered⟩ := Store.register_dependent hsource hundefined c.run
  obtain ⟨hresult, hstate⟩ := register_eq c [.context p] organization
  -- After the recording the dependent is as undefined as before.
  have hundefined' : (recordOutput o v c).state.store.definition? p.key = none :=
    (Store.definition?_record o v c.store p.key).trans hundefined
  obtain ⟨hregister', hregistered'⟩ :=
    Store.register_dependent hsource hundefined' (recordOutput o v c).state.run
  obtain ⟨hresult', hstate'⟩ :=
    register_eq (recordOutput o v c).state [.context p] organization
  rw [hstate, hregistered] at hok
  obtain ⟨hrecord, hstill, hboth⟩ :=
    Store.record_define hkeyed hsource hundefined hnone hkey hlabel hok
  have hlate : late = { c with store := (Store.record o v c.store).state.define (.context p) } := by
    show (register [.context p] organization (recordOutput o v c).state).state = _
    rw [hstate', hregistered']
    rfl
  have hearly : early = { late with
      store := late.store.received p.key (Store.delivery v p.key) } := by
    show (recordOutput o v (register [.context p] organization c).state).state = _
    rw [hlate, hstate, hregistered]
    exact congrArg (fun store => ({ c with store } : Context)) hboth
  have hempty : late.store.value? p.key = none := by
    rw [hlate]
    exact hstill
  have hscalar : Store.delivery v p.key ≠ .scalar :=
    Store.record_ok_iff.mp hok p.key
      ((Store.mem_dependentKeys_define hkeyed hsource p.key).mpr (Or.inl rfl))
  refine ⟨⟨hresult.trans hregister, hrecord, hresult'.trans hregister'⟩,
    congrArg Option.isSome hempty, hearly, ?_⟩
  -- The two ends differ by what was delivered, so they are the same exactly if nothing was.
  rw [← Store.value?_delivery_eq_none_iff hscalar, ← Store.received_eq_iff hempty, hearly]
  exact ⟨congrArg Context.store, fun h => congrArg (fun store => { late with store }) h⟩

/-- An unfinished output brings nothing, so it makes no difference when its dependent comes. -/
theorem deferred_until_recorded_unfinished :
    let o := OutputParameter.ofKey "extract_output"
    let p := ContextParameter.ofSource "email" ⟨.output, "extract_output"⟩
    let v := Json.ofMembers [("status", .text "running"),
      ("extracted_information", .ofMembers [("email", .text "ada@acme.org")])]
    let fresh := Context.fresh .standard "run" ⟨"acme", none⟩ 0
    let c := { fresh with store := fresh.store.define (.output o) }
    c.store.Keyed ∧ p.source = ⟨.output, o.key⟩ ∧ c.parameter? p.key = none ∧
      c.has p.key = false ∧ p.key ≠ o.key ∧ o.label? ≠ some p.key ∧
      (recordOutput o v (register [.context p] "acme" c).state).result = .ok () ∧
      (recordOutput o v (register [.context p] "acme" c).state).state =
        (register [.context p] "acme" (recordOutput o v c).state).state := by
  intro o p v fresh c
  have hkeyed : c.store.Keyed := Store.Keyed.define (fun _ _ h => by cases h) (.output o)
  have hkey : p.key ≠ o.key := by decide
  have hlabel : o.label? ≠ some p.key := by decide +kernel
  have hundefined : c.parameter? p.key = none := by cbv
  have hok : (recordOutput o v (register [.context p] "acme" c).state).result = .ok () := by
    decide +kernel
  have hunfinished : Store.isUnfinished v = true := by decide +kernel
  obtain ⟨-, -, -, hsame⟩ :=
    deferred_until_recorded hkeyed rfl hundefined rfl hkey hlabel hok
  exact ⟨hkeyed, rfl, hundefined, rfl, hkey, hlabel, hok, hsame.mpr hunfinished⟩

/-- A run that has declared the output `extract_output` and records it: a context parameter that
depends on the output has a value when it was registered before, and none when it is registered
afterwards. -/
theorem missed_when_registered_late :
    let o := OutputParameter.ofKey "extract_output"
    let p := ContextParameter.ofSource "email" ⟨.output, "extract_output"⟩
    let v := Json.ofMembers [("email", .text "ada@acme.org")]
    let around := (World.start .standard (Memory.backend Memory.empty) default).around
    let program := Desk.bindAll ⟨[], [o], [], []⟩ ⟨fresh .standard "run" ⟨"acme", none⟩ 0, around⟩
    let c := (program.alone fun _ d => d).2.context
    let early := (recordOutput o v (register [.context p] "acme" c).state).state
    let late := (register [.context p] "acme" (recordOutput o v c).state).state
    (program.alone fun _ d => d).1 = .ok () ∧
      c.parameter? o.key = some (.output o) ∧ c.hasParameter p.key = false ∧
      c.has p.key = false ∧ p.key ≠ o.key ∧ o.label? ≠ some p.key ∧
      (recordOutput o v (register [.context p] "acme" c).state).result = .ok () ∧
      (register [.context p] "acme" (recordOutput o v c).state).result = .ok () ∧
      early.has p.key = true ∧ late.has p.key = false := by
  intro o p v around program c early late
  refine ⟨by decide +kernel, rfl, ?_, ?_, ?_, ?_, ?_, ?_, ?_, ?_⟩ <;> decide +kernel

end Context

end RunParams
