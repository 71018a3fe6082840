import RunParams.Proofs.Context.Provision

/-!
# Where context parameters take their values from

A context parameter refers to its source by a kind and a key. The kind is a label: it has to be one
that a source may have, and it decides whether the parameter waits for an output and what it is
registered after. The value is looked up by the key alone, and nothing compares the label with what
is defined there.

`Store.ResolvedIn` is the moment at which a registration resolves a context parameter, and
`Context.resolved_by_key` says what the parameter gets: its entry in the object under the key of its
source. A source that is labelled as a context parameter and registered along with it is one. Apart
from that the label need not be right: `Context.login_as_source` is a credential parameter that is
read under the label of a workflow parameter. What is drawn from a credential are handles, or null.
-/

namespace RunParams

namespace Store

variable {s t : Store} {q : Parameter} {parameters : List Parameter}

/-- While parameters are registered from a store on, the turn of a context parameter comes in
another one, where it is due and not left to an output. -/
def ResolvedIn (s : Store) (parameters : List Parameter) (p : ContextParameter) (t : Store) :
    Prop :=
  ∃ before after, Parameter.registrationOrder parameters = .ok (before ++ .context p :: after) ∧
    s.enrollAll before = .ok t ∧ t.isRegistered (.context p) = false ∧ p.source.kind ≠ .output

/-- Registrations change nothing at the key of a parameter that is registered already. -/
theorem SameAt.of_enrollAll_of_registered (h : s.enrollAll parameters = .ok t)
    (hq : s.isRegistered q = true) : SameAt q.key t s := by
  -- A registered parameter stays as it is in each step.
  induction parameters generalizing s with
  | nil =>
    cases h
    exact SameAt.refl q.key t
  | cons p rest ih =>
    obtain ⟨u, hp, hrest⟩ := enrollAll_cons.mp h
    have hlater : SameAt q.key t u := ih hrest (isRegistered_enroll_of hp hq)
    exact hlater.trans (SameAt.of_enroll_of_registered hp hq)

/-- What registrations define is defined as a context parameter. -/
theorem context_of_enrollAll (h : s.enrollAll parameters = .ok t)
    (hdue : s.isRegistered q = false) (hq : t.isRegistered q = true) :
    ∃ c, t.definition? q.key = some (.context c) := by
  induction parameters generalizing s with
  | nil =>
    cases h
    rw [hdue] at hq
    cases hq
  | cons p rest ih =>
    obtain ⟨u, hp, hrest⟩ := enrollAll_cons.mp h
    -- It has been registered in this step or will be in a later one.
    cases hu : u.isRegistered q with
    | false => exact ih hrest hu
    | true =>
      -- It is registered by now, so the first parameter has its key and was due.
      have hkey : q.key = p.key := by
        by_contra hother
        rw [(SameAt.of_enroll hp hother).isRegistered_eq, hdue] at hu
        cases hu
      have hpdue : s.isRegistered p = false := by
        unfold isRegistered at hdue ⊢
        rwa [← hkey]
      obtain ⟨c, rfl, hok⟩ := (enroll_of_due hpdue).mp hp
      have hdefined : u.definition? q.key = some (.context c) :=
        hkey ▸ (of_withContext_eq_ok hok).1.definition
      have hlater : SameAt q.key t u := SameAt.of_enrollAll_of_registered hrest hu
      exact ⟨c, hlater.definition.trans hdefined⟩

end Store

namespace Context

open Store

variable {parameters : List Parameter} {organization : String} {p : ContextParameter} {t : Store}

/-- When the parameters of a step are registered, each context parameter that is resolved from a
source has a workflow parameter or a context parameter as its source according to its label. It is
defined, and its value is its entry, or null without one, in what the key of its source has at that
moment, which is an object and not the handle of an external secret. If that object holds handles,
as it does for a credential, the value is null or a handle. And if the label says context parameter
and a parameter with the key of the source is due in the same step, then a context parameter is
defined there. -/
theorem resolved_by_key (c : Context) (hok : (register parameters organization c).result = .ok ())
    (hp : c.store.ResolvedIn parameters p t) :
    let final := (register parameters organization c).state
    (p.source.kind = .workflow ∨ p.source.kind = .context) ∧
      (∃ members, t.value? p.source.key = some (.object members) ∧
        final.parameter? p.key = some (.context p) ∧
        final.get p.key = .ok ((Entries.find p.key members).getD .null)) ∧
      (∀ handle, t.value? p.source.key ≠ some (.text handle)) ∧
      (∀ value, t.value? p.source.key = some value → c.vault.HoldsHandles value →
        final.get p.key = .ok .null ∨
          ∃ entry, final.get p.key = .ok entry ∧ final.vault.Reveals entry) ∧
      (p.source.kind = .context → ∀ q ∈ parameters, q.key = p.source.key →
        c.store.isRegistered q = false →
        ∃ d, t.definition? p.source.key = some (.context d) ∧
          final.parameter? p.source.key = some (.context d)) := by
  intro final
  obtain ⟨before, after, horder, hbefore, hdue, houtput⟩ := hp
  obtain ⟨hresult, hstate⟩ := register_eq c parameters organization
  have hfinal : final = { c with store := (Store.register c.run parameters c.store).state } :=
    hstate
  obtain ⟨ordered, horder', hall⟩ := register_ok_iff.mp ⟨hresult.symm.trans hok, rfl⟩
  cases horder.symm.trans horder'
  obtain ⟨u, hu, hrest⟩ := enrollAll_append.mp hall
  cases hbefore.symm.trans hu
  -- What the parameter gets at its turn it has in the end, since it is registered then.
  obtain ⟨v, hv, hafter⟩ := enrollAll_cons.mp hrest
  obtain ⟨_, heq, hwith⟩ := (enroll_of_due hdue).mp hv
  cases heq
  obtain ⟨henrolled, -⟩ := of_withContext_eq_ok hwith
  have hreads := ContextParameter.reads_of_ne_output henrolled.isSource houtput
  obtain ⟨members, hmembers, hentry⟩ := henrolled.entry hreads
  have hkept : SameAt p.key final.store v := by
    rw [hfinal]
    exact SameAt.of_enrollAll_of_registered hafter (isRegistered_enroll hv)
  have hget : final.get p.key = .ok ((Entries.find p.key members).getD .null) :=
    get_eq_ok_iff.mpr (hkept.value.trans hentry)
  refine ⟨hreads, ⟨members, hmembers, hkept.definition.trans henrolled.definition, hget⟩,
    fun handle hhandle => ?_, fun value hvalue hhandles => ?_, fun hkind q hq hkey hqdue => ?_⟩
  · -- A text is no object.
    rw [hmembers] at hhandle
    cases hhandle
  · -- An entry of a value that holds handles is a handle or holds some, and it is null if there is
    -- none.
    rw [hmembers] at hvalue
    cases hvalue
    rw [hget]
    cases hfound : Entries.find p.key members with
    | none => exact Or.inl rfl
    | some entry =>
      have hreveals : c.vault.Reveals entry := hhandles.reveals_member hfound
      refine Or.inr ⟨entry, rfl, ?_⟩
      rw [hfinal]
      exact hreveals
  · -- The source comes before the chained parameter, and stays what it is defined as.
    have hinorder := Parameter.registrationOrder_inOrder horder
    have hchained : Parameter.tier (.context p) = .chained := if_pos hkind
    have hin : q ∈ before ++ .context p :: after :=
      (Parameter.registrationOrder_perm horder).symm.subset hq
    have hfirst : q ∈ before := hinorder.mem_before hchained (congrArg some hkey.symm) hin
    have hregistered : t.isRegistered q = true := isRegistered_enrollAll hbefore (.inl hfirst)
    obtain ⟨d, hd⟩ := context_of_enrollAll hbefore hqdue hregistered
    have hsame : SameAt q.key final.store t := by
      rw [hfinal]
      exact SameAt.of_enrollAll_of_registered hrest hregistered
    rw [← hkey]
    exact ⟨d, hd, hsame.definition.trans hd⟩

/-- A password is bound to a credential parameter, and a context parameter that says that its source
is a workflow parameter reads the handle of the user name from it. -/
theorem resolved_by_key_login :
    let declarations : Declarations := ⟨[], [], [], [.credential (.ofId "login" "cred_1")]⟩
    let around := (World.start .standard (Memory.backend (Memory.empty.addPassword "cred_1" "o_1"
      ⟨"u", "p", none⟩)) default).around
    let first := fresh .standard "r" ⟨"o_1", none⟩ 0
    let c := (Desk.bindAll declarations ⟨first, around⟩).state.context
    let username := ContextParameter.ofSource "username" ⟨.workflow, "login"⟩
    let final := (register [.context username] "o_1" c).state
    (register [.context username] "o_1" c).result = .ok () ∧
      c.store.ResolvedIn [.context username] username c.store ∧
      ∃ members, c.get "login" = .ok (.object members) ∧
        final.get "username" = .ok ((Entries.find "username" members).getD .null) := by
  intro declarations around first c username final
  have hok : (register [.context username] "o_1" c).result = .ok () := by decide +kernel
  have hresolved : c.store.ResolvedIn [.context username] username c.store :=
    ⟨[], [], by rfl, rfl, by decide +kernel, by decide⟩
  obtain ⟨-, ⟨members, hmembers, -, hget⟩, -⟩ := resolved_by_key c hok hresolved
  exact ⟨hok, hresolved, members, get_eq_ok_iff.mpr hmembers, hget⟩

/-- What is read as a workflow parameter may be a credential parameter. -/
theorem login_as_source :
    let declarations : Declarations := ⟨[], [], [], [.credential (.ofId "login" "cred_1")]⟩
    let around := (World.start .standard (Memory.backend (Memory.empty.addPassword "cred_1" "o_1"
      ⟨"u", "p", none⟩)) default).around
    let first := fresh .standard "r" ⟨"o_1", none⟩ 0
    let c := (Desk.bindAll declarations ⟨first, around⟩).state.context
    let username := ContextParameter.ofSource "username" ⟨.workflow, "login"⟩
    let final := (register [.context username] "o_1" c).state
    first.Reaches c ∧ (register [.context username] "o_1" c).result = .ok () ∧
      c.store.ResolvedIn [.context username] username c.store ∧
      (final.parameter? username.source.key).map Parameter.kind = some .credential ∧
      username.source.kind = .workflow := by
  intro declarations around first c username final
  have hreaches : first.Reaches c := .single (.bind declarations around (.here _))
  have hresolved : c.store.ResolvedIn [.context username] username c.store :=
    ⟨[], [], by rfl, rfl, by decide +kernel, by decide⟩
  exact ⟨hreaches, by decide +kernel, hresolved, by decide +kernel, rfl⟩

end Context

end RunParams
