import Mathlib.Data.List.Induction
import RunParams.Lookup.Memory
import RunParams.Proofs.BoundValues.Changes
import RunParams.World

/-!
# When bound values survive a run

After the declarations of a run are bound, its steps register parameters, add context parameters and
record the declared outputs. What has been bound survives such a change (`Context.Survives`) unless
the change records an output under a key, or under the label of a step, that belongs to something
bound (`Context.Harmless`).

`Context.bound_values_survive` says so for whole runs of changes, and then for declarations: every
run of changes leaves alone what was bound just when no declared output has the key, or names the
label, of something that is bound at the start. `Context.login_overwritten` is a run in which the
handles of a credential are mixed with the output of a step.
-/

namespace RunParams

/-- The changes that the steps of a run make: registering parameters, adding context parameters and
recording some outputs. -/
def Change.IsLater (outputs : List OutputParameter) : Change → Prop
  | register _ _ | addContext _ => True
  | record o _ => o ∈ outputs
  | set _ _ | annotate _ _ => False

/-- For every value there is another one that no alias is mixed with. -/
theorem Store.exists_other_alias (value : Json) :
    ∃ v, v ≠ value ∧ ∀ current, Store.aliased (some current) v = v := by
  have halias : ∀ b, ∀ current, Store.aliased (some current) (.bool b) = .bool b := by
    intro b current
    cases current <;> rfl
  -- Not both truth values are the value in question.
  cases value with
  | bool b => exact ⟨.bool (!b), by simp, halias (!b)⟩
  | _ => exact ⟨.bool true, by simp, halias true⟩

namespace Context

variable {c bound : Context} {outputs : List OutputParameter} {change : Change} {key : String}
  {p : Parameter} {value : Json}

/-- What is still defined as bound at the start has the value that was bound, and that of a
credential parameter holds handles of the run. -/
structure Survives (bound c : Context) : Prop where
  same : ∀ key p, c.parameter? key = some p → p.isBoundAtStart = true →
    ∃ value, bound.get key = .ok value ∧ c.get key = .ok value
  handles : ∀ key p, c.parameter? key = some (.credential p) →
    ∃ value, c.get key = .ok value ∧ c.vault.HoldsHandles value

/-- Recording an output writes nothing else over a value that was bound at the start: one under its
own key is the output itself, and one under the label of its step stays what it is as an alias. -/
def Harmless (c : Context) (o : OutputParameter) (v : Json) : Prop :=
  ∀ key p value, c.parameter? key = some p → p.isBoundAtStart = true → c.get key = .ok value →
    (key = o.key → v = value) ∧ (o.label? = some key → Store.aliased (some value) v = value)

/-- A context in which nothing more has been done is as it was bound. -/
theorem WellBound.survives (h : c.WellBound) : Survives c c := by
  constructor
  · intro key p hp hbound
    obtain ⟨value, hvalue⟩ := h.valued key p hp hbound
    exact ⟨value, get_eq_ok_iff.mpr hvalue, get_eq_ok_iff.mpr hvalue⟩
  · intro key p hp
    obtain ⟨value, hvalue, hhandles⟩ := h.handles key p hp
    exact ⟨value, get_eq_ok_iff.mpr hvalue, hhandles⟩

/-- Recording an output leaves a value alone just when it is harmless to it. -/
theorem get_record_iff (hkeyed : c.store.Keyed) (hp : c.parameter? key = some p)
    (hbound : p.isBoundAtStart = true) (hvalue : c.get key = .ok value) (o : OutputParameter)
    (v : Json) :
    (c.change (.record o v)).get key = .ok value ↔
      (key = o.key → v = value) ∧ (o.label? = some key → Store.aliased (some value) v = value) :=
  get_eq_ok_iff.trans
    (Store.value?_record_eq_iff hkeyed hp hbound (get_eq_ok_iff.mp hvalue) o v)

/-- A later change leaves a value alone, if it records no output or does no harm. -/
theorem get_change (hkeyed : c.store.Keyed) (hlater : change.IsLater outputs)
    (hharmless : ∀ o v, change = .record o v → c.Harmless o v)
    (hp : (c.change change).parameter? key = some p) (hbound : p.isBoundAtStart = true)
    (hvalue : c.get key = .ok value) : (c.change change).get key = .ok value := by
  have hp' : c.parameter? key = some p := (follows_change c change).definition key p hp hbound
  -- Neither registrations nor additions touch what is bound at the start; a record may do so, and
  -- is harmless by assumption. Other changes are not later ones.
  cases change with
  | register parameters organization =>
    have hkeeps : c.store.Keeps (Store.register c.run parameters c.store).state :=
      Store.keeps_register c.run parameters c.store
    have hchange : c.change (.register parameters organization) =
        { c with store := (Store.register c.run parameters c.store).state } :=
      (register_eq c parameters organization).2
    rw [hchange] at hp ⊢
    rw [get_eq_ok_iff] at hvalue ⊢
    exact (hkeeps.value key p hp hbound).trans hvalue
  | addContext q =>
    have hkeeps : c.store.Keeps (Store.addContext q c.store).state :=
      Store.keeps_addContext q c.store
    rw [get_eq_ok_iff] at hvalue ⊢
    exact (hkeeps.value key p hp hbound).trans hvalue
  | record o v =>
    exact (get_record_iff hkeyed hp' hbound hvalue o v).mpr
      (hharmless o v rfl key p value hp' hbound hvalue)
  | set key value => exact hlater.elim
  | annotate label fields => exact hlater.elim

/-- What has survived survives a later change that does no harm. -/
theorem Survives.step (h : Survives bound c) (hkeyed : c.store.Keyed)
    (hlater : change.IsLater outputs) (hharmless : ∀ o v, change = .record o v → c.Harmless o v) :
    Survives bound (c.change change) := by
  constructor
  · -- Values and handles survive the change for the same reason.
    intro key p hp hbound
    have hp' : c.parameter? key = some p := (follows_change c change).definition key p hp hbound
    obtain ⟨value, hfirst, hvalue⟩ := h.same key p hp' hbound
    exact ⟨value, hfirst, get_change hkeyed hlater hharmless hp hbound hvalue⟩
  · intro key p hp
    have hp' : c.parameter? key = some (.credential p) :=
      (follows_change c change).definition key _ hp rfl
    obtain ⟨value, hvalue, hhandles⟩ := h.handles key p hp'
    rw [vault_change]
    exact ⟨value, get_change hkeyed hlater hharmless hp rfl hvalue, hhandles⟩

/-- One more change comes after all the others. -/
theorem changed_append (c : Context) (before : List Change) (change : Change) :
    c.changed (before ++ [change]) = (c.changed before).change change := by
  unfold changed
  rw [List.foldl_append]
  rfl

/-- What is bound at the start after any changes was so before. -/
theorem follows_changed (c : Context) (changes : List Change) :
    c.store.Follows (c.changed changes).store :=
  keepsTo_changed c changes fun change _ d => follows_change d change

/-- A context in which nothing was bound yet is well bound, whatever else was done to it. -/
theorem wellBound_changed_fresh (settings : ResolverSettings) (run : String)
    (organization : Organization) (createdAt : Nat) (earlier : List Change) :
    ((fresh settings run organization createdAt).changed earlier).WellBound := by
  have hnone : ∀ key, (fresh settings run organization createdAt).store.definition? key = none :=
    fun _ => rfl
  have hfollows := follows_changed (fresh settings run organization createdAt) earlier
  refine ⟨hfollows.keyed fun key p hp => ?_, fun key p hp hbound => ?_, fun key p hp => ?_⟩
  · -- In a fresh context nothing is defined, so nothing has to be bound.
    rw [hnone] at hp
    cases hp
  · have hfirst := hfollows.definition key p hp hbound
    rw [hnone] at hfirst
    cases hfirst
  · have hfirst := hfollows.definition key _ hp rfl
    rw [hnone] at hfirst
    cases hfirst

/-- What is bound survives a run of later changes that do no harm. -/
theorem WellBound.survives_changed (h : c.WellBound) (later : List Change)
    (hlater : ∀ change ∈ later, change.IsLater outputs)
    (hharmless : ∀ before o v, before ++ [.record o v] <+: later →
      (c.changed before).Harmless o v) : Survives c (c.changed later) := by
  -- From the last change back, since a record does its harm after the changes that come before it.
  induction later using List.reverseRecOn with
  | nil => exact h.survives
  | append_singleton before change ih =>
    have hbefore : Survives c (c.changed before) := by
      refine ih (fun other hother => hlater other (List.mem_append_left _ hother)) ?_
      exact fun first o v hfirst => hharmless first o v (hfirst.trans (List.prefix_append _ _))
    rw [changed_append]
    refine hbefore.step ((follows_changed c before).keyed h.keyed)
      (hlater change (List.mem_append_right _ (List.mem_singleton.mpr rfl))) ?_
    rintro o v rfl
    exact hharmless before o v (List.prefix_refl _)

/-- A record that what is bound survives does no harm. -/
theorem Survives.harmless {o : OutputParameter} {v : Json} (hkeyed : c.store.Keyed)
    (h : Survives bound c) (h' : Survives bound (c.change (.record o v))) : c.Harmless o v := by
  intro key p value hp hbound hvalue
  have hp' : (c.change (.record o v)).parameter? key = some p :=
    (Store.definition?_record o v c.store key).trans hp
  obtain ⟨first, hfirst, hsame⟩ := h.same key p hp hbound
  obtain ⟨again, hagain, hsame'⟩ := h'.same key p hp' hbound
  have hvalue' : (c.change (.record o v)).get key = .ok value :=
    calc (c.change (.record o v)).get key = .ok again := hsame'
      _ = bound.get key := hagain.symm
      _ = .ok first := hfirst
      _ = c.get key := hsame.symm
      _ = .ok value := hvalue
  exact (get_record_iff hkeyed hp hbound hvalue o v).mp hvalue'

/-- Values that are bound when a run starts survive its later changes just as far as the outputs
that are recorded do no harm to them. For every context in which the declarations of a run have been
bound, in whatever way others took turns with it:

* after every part of a run of later changes all that is still bound has its value, and those of
  credential parameters hold handles of the run, if and only if each output that the run records is
  harmless where it is recorded;
* this holds of all runs of later changes if and only if no declared output has the key of something
  that is bound at the start, and none names it as its label. -/
theorem bound_values_survive (settings : ResolverSettings) (run : String)
    (organization : Organization) (createdAt : Nat) (earlier : List Change)
    (declarations : Declarations) (around : Surroundings) {d : Desk}
    (hend : (Desk.bindAll declarations
      ⟨(fresh settings run organization createdAt).changed earlier, around⟩).CanEnd
        Desk.SameContext d (.ok ())) :
    (∀ later, (∀ change ∈ later, change.IsLater declarations.outputs) →
      ((∀ before, before <+: later → Survives d.context (d.context.changed before)) ↔
        ∀ before o v, before ++ [.record o v] <+: later →
          (d.context.changed before).Harmless o v)) ∧
    ((∀ later, (∀ change ∈ later, change.IsLater declarations.outputs) →
        Survives d.context (d.context.changed later)) ↔
      ∀ o ∈ declarations.outputs, ∀ key p, d.context.parameter? key = some p →
        p.isBoundAtStart = true → key ≠ o.key ∧ o.label? ≠ some key) := by
  have hbound : d.context.WellBound :=
    Desk.preserves_bindAll declarations _ d () (wellBound_changed_fresh _ _ _ _ earlier) hend
  have hkeyed : ∀ before, (d.context.changed before).store.Keyed :=
    fun before => (follows_changed d.context before).keyed hbound.keyed
  constructor
  · intro later hlater
    constructor
    · -- What survives up to a record and through it is not harmed by it.
      intro hsurvives before o v hbefore
      have hone := hsurvives before ((List.prefix_append _ _).trans hbefore)
      have hnext := hsurvives _ hbefore
      rw [changed_append] at hnext
      exact hone.harmless (hkeyed before) hnext
    · intro hharmless before hbefore
      refine hbound.survives_changed before
        (fun change hmem => hlater change (hbefore.subset hmem)) ?_
      exact fun first o v hfirst => hharmless first o v (hfirst.trans hbefore)
  · -- An output that stays clear of all that is bound is harmless, and one that does not can do
    -- harm.
    constructor
    · intro hsurvives o ho key p hp hpbound
      -- An output that is another value, and stays so as an alias, would do harm.
      obtain ⟨value, hvalue⟩ := hbound.valued key p hp hpbound
      obtain ⟨v, hne, halias⟩ := Store.exists_other_alias value
      have hone := hsurvives [.record o v] fun change hmem => by
        cases List.mem_singleton.mp hmem
        exact ho
      have hharmless := hbound.survives.harmless hbound.keyed hone
      obtain ⟨hkey, hlabel⟩ :=
        hharmless key p value hp hpbound (get_eq_ok_iff.mpr hvalue)
      constructor
      · exact fun hsame => hne (hkey hsame)
      · exact fun hsame => hne ((halias value).symm.trans (hlabel hsame))
    · -- What is still bound was so after the binding, and there no output came near it.
      intro hapart later hlater
      refine hbound.survives_changed later hlater fun before o v hbefore => ?_
      intro key p value hp hpbound _
      have ho : o ∈ declarations.outputs :=
        hlater (.record o v) (hbefore.subset (List.mem_append_right _ List.mem_cons_self))
      have hp' := (follows_changed d.context before).definition key p hp hpbound
      obtain ⟨hkey, hlabel⟩ := hapart o ho key p hp' hpbound
      exact ⟨fun hsame => absurd hsame hkey, fun hsame => absurd hsame hlabel⟩

/-- The output of the step `fetch` can be declared along with a workflow parameter and a credential:
neither is named `fetch` or has the key of the output. -/
theorem bound_values_survive_fetch :
    let declarations : Declarations :=
      ⟨[⟨.ofKey "url" .string, .text "https"⟩], [.ofLabel "fetch"], [],
        [.credential (.ofId "login" "cred_1")]⟩
    let around := (World.start .standard (Memory.backend (Memory.empty.addPassword "cred_1" "o_1"
      ⟨"u", "p", none⟩)) default).around
    let program := Desk.bindAll declarations ⟨fresh .standard "r" ⟨"o_1", none⟩ 0, around⟩
    let d := (program.alone fun _ d => d).2
    program.CanEnd Desk.SameContext d (.ok ()) ∧
      ∀ later, (∀ change ∈ later, change.IsLater declarations.outputs) →
        Survives d.context (d.context.changed later) := by
  intro declarations around program d
  have hok : (program.alone fun _ d => d).1 = .ok () := by decide +kernel
  have hend : program.CanEnd Desk.SameContext d (.ok ()) := by
    rw [← hok]
    exact Desk.canEnd_alone program
  refine ⟨hend, (bound_values_survive .standard "r" ⟨"o_1", none⟩ 0 [] declarations around
    hend).2.mpr ?_⟩
  intro o ho key p hp hbound
  cases List.mem_singleton.mp ho
  have hkey : (d.context.parameter? "fetch_output").map Parameter.isBoundAtStart = some false := by
    decide +kernel
  have hlabel : (d.context.parameter? "fetch").isNone = true := by decide +kernel
  constructor
  · rintro rfl
    rw [show (OutputParameter.ofLabel "fetch").key = "fetch_output" from rfl] at hp
    rw [hp, Option.map_some, hbound] at hkey
    cases hkey
  · intro hsame
    have hfetch : key = "fetch" := (Option.some.inj hsame).symm
    rw [hfetch] at hp
    rw [hp] at hlabel
    cases hlabel

/-- A credential parameter that is named as the step of a declared output does not keep its value:
the output of the step is mixed with the handles. -/
theorem login_overwritten :
    let declarations : Declarations :=
      ⟨[], [.ofKey "login_output"], [], [.credential (.ofId "login" "cred_1")]⟩
    let around := (World.start .standard (Memory.backend (Memory.empty.addPassword "cred_1" "o_1"
      ⟨"u", "p", none⟩)) default).around
    let program := Desk.bindAll declarations ⟨fresh .standard "r" ⟨"o_1", none⟩ 0, around⟩
    let d := (program.alone fun _ d => d).2
    let output := Json.ofMembers [("status", .text "completed"), ("note", .text "cleartext")]
    let later := [Change.record (.ofKey "login_output") output]
    program.CanEnd Desk.SameContext d (.ok ()) ∧
      (∀ change ∈ later, change.IsLater declarations.outputs) ∧
      (d.context.parameter? "login").map Parameter.kind = some .credential ∧
      ¬ Survives d.context (d.context.changed later) := by
  intro declarations around program d output later
  have hok : (program.alone fun _ d => d).1 = .ok () := by decide +kernel
  have hend : program.CanEnd Desk.SameContext d (.ok ()) := by
    rw [← hok]
    exact Desk.canEnd_alone program
  have hlater : ∀ change ∈ later, change.IsLater declarations.outputs := by
    intro change hmem
    cases List.mem_singleton.mp hmem
    exact List.mem_singleton.mpr rfl
  have hkind : (d.context.parameter? "login").map Parameter.kind = some .credential := by
    decide +kernel
  have hstill : ((d.context.changed later).parameter? "login").map Parameter.kind =
      some .credential := by
    decide +kernel
  have hnote : (((d.context.changed later).get "login").toOption.bind
      (·.member? "note")).bind Json.text? = some "cleartext" := by
    decide +kernel
  have hsecret : ((d.context.changed later).vault.revealText "cleartext").isNone = true := by
    decide +kernel
  refine ⟨hend, hlater, hkind, fun hsurvives => ?_⟩
  -- The entry `note` would have to be a handle, but the vault has nothing under its text.
  cases hp : (d.context.changed later).parameter? "login" with
  | none =>
    rw [hp] at hstill
    cases hstill
  | some p =>
    rw [hp] at hstill
    cases p with
    | credential p =>
      obtain ⟨value, hvalue, hhandles⟩ := hsurvives.handles "login" p hp
      rw [hvalue] at hnote
      obtain ⟨entry, hentry, htext⟩ := Option.bind_eq_some_iff.mp hnote
      obtain ⟨secret, hreveals⟩ := hhandles.reveals_member hentry
      unfold Vault.reveal at hreveals
      rw [htext] at hreveals
      have hnone := Option.isNone_iff_eq_none.mp hsecret
      rw [Option.bind_some, hnone] at hreveals
      cases hreveals
    | _ => cases hstill

end Context

end RunParams
