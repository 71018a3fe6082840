import RunParams.Proofs.Context.Provision

/-!
# Registering what has been registered

What is registered in a store is registered whatever comes later, short of a new declaration: a
parameter that is enrolled leaves what is registered alone, and a value that is set can only end a
wait (`Store.RegisteredIn`). And registered parameters can be registered again, in any order and any
number of times, which changes nothing (`Store.register_of_registered`).

So a step that is taken again finds its parameters registered, whatever was registered, recorded,
set or noted meanwhile (`Context.register_again`). Only the addition of a context parameter may
come between, since its definition waits for a value once more.
-/

namespace RunParams

namespace Store

variable {s : Store} {parameters : List Parameter}

/-- What is registered in one store is registered in another. -/
def RegisteredIn (s t : Store) : Prop := ∀ p, s.isRegistered p = true → t.isRegistered p = true

instance : Std.Refl RegisteredIn := ⟨fun _ _ h => h⟩

instance : Trans RegisteredIn RegisteredIn RegisteredIn := ⟨fun h h' p hp => h' p (h p hp)⟩

/-- What is registered stays so when a value is set. -/
theorem registeredIn_set (key : String) (value : Json) (s : Store) :
    s.RegisteredIn (s.set key value) := by
  intro p hp
  unfold isRegistered at hp ⊢
  obtain ⟨hdefined, hready⟩ := Bool.and_eq_true_iff.mp hp
  -- The definitions are the same, and a parameter that has its value still has one.
  have hready' : (s.set key value).isPending p.key = false := by
    unfold isPending at hready ⊢
    rw [definition?_set]
    cases hdefinition : s.definition? p.key with
    | none => rfl
    | some q =>
      rw [hdefinition] at hready
      cases q with
      -- Only a context parameter without an output as its source can be pending for want of a
      -- value.
      | context c =>
        by_cases hkind : c.source.kind = .output
        · simp [hkind]
        · have hhas : s.hasValue p.key = true := by simpa [hkind] using hready
          have hhas' := (growsTo_set key value s).valued p.key hhas
          simp [hhas']
      | _ => rfl
  rw [hready']
  exact Bool.and_eq_true_iff.mpr ⟨hdefined, rfl⟩

/-- Registered parameters are enrolled as they are. -/
theorem enrollAll_of_registered (h : ∀ p ∈ parameters, s.isRegistered p = true) :
    s.enrollAll parameters = .ok s := by
  induction parameters with
  | nil => rfl
  | cons p rest ih =>
    have hp : s.enroll p = .ok s := enroll_of_registered (h p List.mem_cons_self)
    have hrest : s.enrollAll rest = .ok s := ih fun q hq => h q (List.mem_cons_of_mem p hq)
    exact enrollAll_cons.mpr ⟨s, hp, hrest⟩

/-- Registered parameters that have an order of registration can be registered again, and nothing
changes. -/
theorem register_of_registered (run : String) {ordered : List Parameter}
    (horder : Parameter.registrationOrder parameters = .ok ordered)
    (h : ∀ p ∈ parameters, s.isRegistered p = true) :
    (register run parameters s).result = .ok () ∧ (register run parameters s).state = s := by
  -- All are registered in whatever order they come, so all of them are skipped.
  have hordered : ∀ p ∈ ordered, s.isRegistered p = true :=
    fun p hp => h p ((Parameter.registrationOrder_perm horder).subset hp)
  exact register_ok_iff.mpr ⟨ordered, horder, enrollAll_of_registered hordered⟩

end Store

namespace Context

open Store

/-- What is registered in a context stays so with every change but the addition of a context
parameter. -/
theorem registeredIn_change (c : Context) {change : Change} (h : ∀ p, change ≠ .addContext p) :
    c.store.RegisteredIn (c.change change).store :=
  keepsTo_change (fun henroll _ hp => isRegistered_enroll_of henroll hp) registeredIn_set c change
    fun p hp => absurd hp (h p)

/-- What is registered in a context stays so with any number of changes none of which adds a context
parameter. -/
theorem registeredIn_changed (c : Context) {changes : List Change}
    (h : ∀ p, Change.addContext p ∉ changes) : c.store.RegisteredIn (c.changed changes).store := by
  refine keepsTo_changed c changes fun change hchange d => registeredIn_change d ?_
  rintro p rfl
  exact h p hchange

/-- When the parameters of a step have been registered, then after any registrations, be they
successful or not, recorded outputs, set values and notes, a step that has no other parameters is
registered as well, in whatever order and however often it has them, and the context stays what it
is. -/
theorem register_again (c : Context) {parameters again : List Parameter} {organization : String}
    (hok : (register parameters organization c).result = .ok ()) {later : List Change}
    (hlater : ∀ p, Change.addContext p ∉ later) (hagain : again ⊆ parameters)
    (organization' : String) :
    let d := (register parameters organization c).state.changed later
    (register again organization' d).result = .ok () ∧
      (register again organization' d).state = d := by
  intro d
  obtain ⟨hresult, hstate⟩ := register_eq c parameters organization
  have hfirst : (Store.register c.run parameters c.store).result = .ok () := hresult.symm.trans hok
  obtain ⟨ordered, horder, -⟩ := register_ok_iff.mp ⟨hfirst, rfl⟩
  obtain ⟨ordered', horder'⟩ := Parameter.registrationOrder_of_subset hagain horder
  -- What was registered stays so through all later changes, none of which adds a context parameter.
  have hregistered : ∀ p ∈ again, d.store.isRegistered p = true := by
    intro p hp
    have hthen : (register parameters organization c).state.store.isRegistered p = true := by
      rw [hstate]
      exact isRegistered_register hfirst (hagain hp)
    exact registeredIn_changed _ hlater p hthen
  obtain ⟨hsecond, hsame⟩ := register_of_registered d.run horder' hregistered
  obtain ⟨hresult', hstate'⟩ := register_eq d again organization'
  rw [hresult', hstate', hsame]
  exact ⟨hsecond, rfl⟩

/-- A chain is registered, then its source is replaced by something that is no object, a
registration fails and an output is recorded. The chain can still be registered again, with its last
parameter twice and its first one left out. -/
theorem register_again_chain :
    let root := ContextParameter.ofSource "root" ⟨.workflow, "input"⟩
    let street := ContextParameter.ofSource "street" ⟨.context, "root"⟩
    let other := ContextParameter.ofSource "other" ⟨.workflow, "input"⟩
    let c := (fresh .standard "run" ⟨"acme", none⟩ 0).set "input"
      (.object [("root", .object [("street", .text "Main Street")])])
    let later : List Change := [.set "input" (.int 1), .register [.context other] "acme",
      .record (.ofLabel "root") (.object [("street", .text "Elm Street")])]
    let d := (register [.context street, .context root] "acme" c).state.changed later
    (register [.context street, .context root] "acme" c).result = .ok () ∧
      (register [.context other] "acme" d).result = .error (.malformedSource "other" "input") ∧
      (register [.context street, .context street] "acme" d).result = .ok () ∧
      (register [.context street, .context street] "acme" d).state = d := by
  intro root street other c later d
  have hok : (register [.context street, .context root] "acme" c).result = .ok () := by cbv
  have hlater : ∀ p, Change.addContext p ∉ later := by
    intro p hp
    simp [later] at hp
  have hagain : [Parameter.context street, .context street] ⊆ [.context street, .context root] := by
    intro p hp
    simp only [List.mem_cons, List.not_mem_nil, or_false, or_self] at hp
    exact hp ▸ List.mem_cons_self
  exact ⟨hok, by decide +kernel, register_again c hok hlater hagain "acme"⟩

end Context

end RunParams
