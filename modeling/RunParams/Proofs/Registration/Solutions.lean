import RunParams.Proofs.Registration.Arrangement
import RunParams.Proofs.Registration.Equations

/-!
# Registration solves the source equations, in any order

`Solves s parameters t` says of a list of parameters at once what `Enrolled` says of one: at the key
of each parameter that is due, `t` satisfies the parameter's equation, and everywhere else `t` is
`s`. Nothing in it depends on the order of the list.

Registering parameters one after the other ends in a solution (`Solves.of_enrollAll`), and whenever
there is a solution the registration succeeds and ends in it (`Solves.enrollAll_eq`). Both need that
the keys are distinct and that nothing reads a parameter that comes after it, which
`Parameter.registrationOrder` sees to. So two declarations of the same parameters end alike
(`Context.register_of_perm`).
-/

namespace RunParams

/-- No context parameter with a workflow source names another context parameter as its source. -/
def Parameter.WorkflowSourcesApart (parameters : List Parameter) : Prop :=
  ∀ c d, Parameter.context c ∈ parameters → Parameter.context d ∈ parameters →
    c.source.kind = .workflow → c ≠ d → c.source.key ≠ d.key

namespace Parameter

variable {parameters ordered : List Parameter}

/-- Under distinct keys and apart from workflow sources, nothing reads what is registered after it.
-/
theorem unread_of_registrationOrder (h : registrationOrder parameters = .ok ordered)
    (hkeys : (parameters.map key).Nodup) (hapart : WorkflowSourcesApart parameters) :
    ordered.Pairwise Unread := by
  have hperm := registrationOrder_perm h
  have hdistinct : ordered.Pairwise fun p q => p.key ≠ q.key :=
    List.pairwise_map.mp ((hperm.map key).nodup_iff.mpr hkeys)
  have hboth := (registrationOrder_inOrder h).later.and hdistinct
  refine hboth.imp_of_mem ?_
  rintro p q hp hq ⟨hbefore, hne⟩ c d rfl rfl hreads
  -- A workflow source is apart by assumption, a context source is in order.
  rcases hreads with hworkflow | hcontext
  · have hcd : c ≠ d := fun hsame => hne (congrArg ContextParameter.key hsame)
    exact hapart c d (hperm.subset hp) (hperm.subset hq) hworkflow hcd
  · have hchained : tier (.context c) = .chained := if_pos hcontext
    exact fun hsame => hbefore hchained (congrArg some hsame)

/-- A context parameter that reads itself from a context source is in no order of registration. -/
theorem source_ne_of_registrationOrder {c : ContextParameter}
    (h : registrationOrder parameters = .ok ordered) (hmem : context c ∈ parameters)
    (hkind : c.source.kind = .context) : c.source.key ≠ c.key := by
  have hin : context c ∈ ordered := (registrationOrder_perm h).symm.subset hmem
  have hchained : tier (.context c) = .chained := if_pos hkind
  exact fun hsame =>
    (registrationOrder_inOrder h).itself _ hin hchained (congrArg some hsame)

end Parameter

namespace Store

variable {s t u v : Store} {c : ContextParameter} {p : Parameter} {key : String}
  {parameters done rest : List Parameter}

/-- Where a context parameter finds its source: in the store as it is in the end, unless it is its
own source, which it reads before it is bound. -/
def sourceFor (s t : Store) (c : ContextParameter) : Store := if c.source.key = c.key then s else t

/-- `t` is `s` with the parameters that are due solved. -/
structure Solves (s : Store) (parameters : List Parameter) (t : Store) : Prop where
  due : ∀ p ∈ parameters, s.isRegistered p = false →
    ∃ c, p = .context c ∧ Enrolled s (sourceFor s t c) t c
  frame : ∀ key, (∀ p ∈ parameters, p.key = key → s.isRegistered p = true) → SameAt key t s

/-- What is solved does not depend on the order of the parameters. -/
theorem Solves.perm {others : List Parameter} (h : Solves s parameters t)
    (hperm : parameters.Perm others) : Solves s others t := by
  constructor
  · intro p hp
    exact h.due p (hperm.symm.subset hp)
  · intro key hkey
    exact h.frame key fun p hp => hkey p (hperm.subset hp)

/-- Without parameters a store solves itself. -/
theorem Solves.nil (s : Store) : Solves s [] s :=
  ⟨fun _ hp => absurd hp List.not_mem_nil, fun key _ => SameAt.refl key s⟩

/-- Where no solved parameter has its key, a solution is the store. -/
theorem Solves.sameAt (h : Solves s parameters t) (hkey : key ∉ parameters.map Parameter.key) :
    SameAt key t s :=
  h.frame key fun p hp hsame => absurd (List.mem_map.mpr ⟨p, hp, hsame⟩) hkey

/-- What has been enrolled stays so when a key changes that it neither has nor reads. -/
theorem Enrolled.later (h : Enrolled s (sourceFor s u c) u c) (hkey : SameAt c.key v u)
    (hsource : c.Reads → SameAt c.source.key v u) : Enrolled s (sourceFor s v c) v c := by
  have hdefinition : v.definition? c.key = some (.context c) := by
    rw [hkey.definition, h.definition]
  have houtput : c.source.kind = .output → v.value? c.key = s.value? c.key := by
    intro hkind
    rw [hkey.value, h.output hkind]
  refine ⟨h.isSource, hdefinition, fun hreads => ?_, houtput⟩
  obtain ⟨members, hmembers, hentry⟩ := h.entry hreads
  refine ⟨members, ?_, hkey.value.trans hentry⟩
  -- One that is its own source has read it in the first store, which has not changed.
  unfold sourceFor at hmembers ⊢
  -- A parameter that reads its own key has read it before it was set.
  by_cases hself : c.source.key = c.key
  · rw [if_pos hself] at hmembers ⊢
    exact hmembers
  · rw [if_neg hself] at hmembers ⊢
    exact (hsource hreads).value.trans hmembers

/-- Registering one more parameter, which no earlier one reads, solves it too. -/
theorem Solves.enroll (h : Solves s done u) (hp : u.enroll p = .ok v)
    (hkey : p.key ∉ done.map Parameter.key) (hunread : ∀ q ∈ done, q.Unread p) :
    Solves s (done ++ [p]) v := by
  -- The key has not been touched yet, so the parameter is due now if it was so at first.
  have hsame : SameAt p.key u s := h.sameAt hkey
  cases hdue : u.isRegistered p with
  | true =>
    rw [enroll_of_registered hdue] at hp
    cases hp
    have hdue' : s.isRegistered p = true := by rw [← hsame.isRegistered_eq, hdue]
    constructor
    · intro q hq hqdue
      rcases List.mem_append.mp hq with hq | hq
      · exact h.due q hq hqdue
      · rw [List.mem_singleton.mp hq, hdue'] at hqdue
        cases hqdue
    · exact fun key hall => h.frame key fun q hq => hall q (List.mem_append_left _ hq)
  | false =>
    obtain ⟨c, rfl, hok⟩ := (enroll_of_due hdue).mp hp
    have hdue' : s.isRegistered (.context c) = false := by rw [← hsame.isRegistered_eq, hdue]
    obtain ⟨henrolled, hframe⟩ := of_withContext_eq_ok hok
    constructor
    · -- Those done before have kept their keys and sources, and the one just done has what it read.
      intro q hq hqdue
      rcases List.mem_append.mp hq with hq | hq
      · -- An earlier one has another key and another source.
        obtain ⟨d, rfl, hd⟩ := h.due q hq hqdue
        have hapart : d.key ≠ c.key := fun hsame' => hkey (List.mem_map.mpr ⟨_, hq, hsame'⟩)
        have hsource : d.Reads → SameAt d.source.key v u := by
          intro hreads
          have hne : d.source.key ≠ c.key := hunread _ hq d c rfl rfl hreads
          exact hframe d.source.key hne
        exact ⟨d, rfl, hd.later (hframe d.key hapart) hsource⟩
      · cases List.mem_singleton.mp hq
        refine ⟨c, rfl, henrolled.isSource, henrolled.definition, fun hreads => ?_, fun hout => ?_⟩
        · obtain ⟨members, hmembers, hentry⟩ := henrolled.entry hreads
          refine ⟨members, ?_, hentry⟩
          unfold sourceFor
          by_cases hself : c.source.key = c.key
          · rw [if_pos hself, ← hmembers, hself]
            exact hsame.value.symm
          · rw [if_neg hself, (hframe c.source.key hself).value, hmembers]
        · exact (henrolled.output hout).trans hsame.value
    · -- Where nothing is due, the key is not that of the parameter, which is due.
      intro key hall
      have hne : key ≠ c.key := by
        rintro rfl
        have hreg := hall (.context c) (List.mem_append_right _ (List.mem_singleton.mpr rfl)) rfl
        rw [hdue'] at hreg
        cases hreg
      exact (hframe key hne).trans
        (h.frame key fun q hq => hall q (List.mem_append_left _ hq))

/-- Registering parameters one after the other ends in a solution. -/
theorem Solves.enrollAll (h : Solves s done u) (hrest : u.enrollAll rest = .ok t)
    (hkeys : ((done ++ rest).map Parameter.key).Nodup)
    (hunread : (done ++ rest).Pairwise Parameter.Unread) : Solves s (done ++ rest) t := by
  induction rest generalizing done u with
  | nil =>
    cases hrest
    rw [List.append_nil]
    exact h
  -- One step after the other; no step touches a key that an earlier one has set or read.
  | cons p rest ih =>
    obtain ⟨v, hp, hrest⟩ := enrollAll_cons.mp hrest
    have hkey : p.key ∉ done.map Parameter.key := by
      rw [List.map_append, List.nodup_append] at hkeys
      intro hmem
      exact hkeys.2.2 _ hmem _ (List.mem_map_of_mem List.mem_cons_self) rfl
    have hafter : ∀ q ∈ done, q.Unread p :=
      fun q hq => (List.pairwise_append.mp hunread).2.2 q hq p List.mem_cons_self
    rw [List.append_cons] at hkeys hunread ⊢
    exact ih (h.enroll hp hkey hafter) hrest hkeys hunread

/-- Registering parameters one after the other solves them. -/
theorem Solves.of_enrollAll (h : s.enrollAll parameters = .ok t)
    (hkeys : (parameters.map Parameter.key).Nodup)
    (hunread : parameters.Pairwise Parameter.Unread) : Solves s parameters t :=
  (Solves.nil s).enrollAll h hkeys hunread

/-- A store on the way to a solution has it at the keys that are done, and is still the first store
everywhere else. -/
structure Between (s t : Store) (done : List Parameter) (u : Store) : Prop where
  reached : ∀ key ∈ done.map Parameter.key, SameAt key u t
  kept : ∀ key, key ∉ done.map Parameter.key → SameAt key u s

/-- On the way to a solution the next parameter is registered, and the store is still on the way. -/
theorem Solves.next (h : Solves s (done ++ p :: rest) t) (hu : Between s t done u)
    (hkeys : ((done ++ p :: rest).map Parameter.key).Nodup)
    (hunread : (done ++ p :: rest).Pairwise Parameter.Unread) :
    ∃ v, u.enroll p = .ok v ∧ Between s t (done ++ [p]) v := by
  have hmem : p ∈ done ++ p :: rest := List.mem_append_right _ List.mem_cons_self
  rw [List.map_append, List.map_cons] at hkeys
  obtain ⟨-, hrestKeys, hdisjoint⟩ := List.nodup_append.mp hkeys
  have hkey : p.key ∉ done.map Parameter.key :=
    fun hin => hdisjoint _ hin _ List.mem_cons_self rfl
  have hsame : SameAt p.key u s := hu.kept p.key hkey
  -- The step only has to reach the solution at the key of the parameter.
  suffices hstep : ∃ v, u.enroll p = .ok v ∧ SameAt p.key v t by
    -- Other keys are as they were, since a step touches only its own.
    obtain ⟨v, hv, hat⟩ := hstep
    refine ⟨v, hv, fun key hin => ?_, fun key hout => ?_⟩
    · by_cases hpk : key = p.key
      · exact hpk ▸ hat
      · have hin' : key ∈ done.map Parameter.key := by simpa [hpk] using hin
        exact (SameAt.of_enroll hv hpk).trans (hu.reached key hin')
    · rw [List.map_append, List.mem_append, not_or] at hout
      have hpk : key ≠ p.key := fun hsame' => hout.2 (by simp [hsame'])
      exact (SameAt.of_enroll hv hpk).trans (hu.kept key hout.1)
  -- A parameter that is not due is skipped. One that is due reads its source, which has by now what
  -- it has in the end.
  cases hdue : s.isRegistered p with
  | true =>
    -- Keys are distinct, so no other parameter is due at this one.
    have hframe : SameAt p.key t s := by
      refine h.frame p.key fun q hq hqp => ?_
      rcases List.inj_on_of_nodup_map (by rwa [List.map_append, List.map_cons]) hq hmem hqp with rfl
      exact hdue
    exact ⟨u, enroll_of_registered (hsame.isRegistered_eq.trans hdue), hsame.trans hframe.symm⟩
  | false =>
    obtain ⟨c, rfl, henrolled⟩ := h.due p hmem hdue
    have hread : c.Reads → u.value? c.source.key = (sourceFor s t c).value? c.source.key := by
      intro hreads
      unfold sourceFor
      -- The source is the key itself, a key that has been done, or one that no step is to change.
      by_cases hself : c.source.key = c.key
      · rw [if_pos hself, hself]
        exact hsame.value
      · rw [if_neg hself]
        by_cases hin : c.source.key ∈ done.map Parameter.key
        · exact (hu.reached _ hin).value
        · -- The source is not to come, since what is due is a context parameter.
          have hframe : SameAt c.source.key t s := by
            refine h.frame c.source.key fun q hq hqs => ?_
            by_contra hqdue
            obtain ⟨d, rfl, -⟩ := h.due q hq (Bool.eq_false_iff.mpr hqdue)
            rcases List.mem_append.mp hq with hq | hq
            · exact hin (List.mem_map.mpr ⟨_, hq, hqs⟩)
            · rcases List.mem_cons.mp hq with hqp | hq
              · cases hqp
                exact hself hqs.symm
              · have hlater := (List.pairwise_cons.mp (List.pairwise_append.mp hunread).2.1).1
                exact hlater _ hq c d rfl rfl hreads hqs.symm
          calc u.value? c.source.key = s.value? c.source.key := (hu.kept _ hin).value
            _ = t.value? c.source.key := hframe.value.symm
    obtain ⟨v, hv, hat, -⟩ := henrolled.withContext hsame hread
    exact ⟨v, (enroll_of_due (hsame.isRegistered_eq.trans hdue)).mpr ⟨c, rfl, hv⟩, hat⟩

/-- From a store on the way to a solution the registration of the rest ends in the solution. -/
theorem Solves.enrollAll_of_between (h : Solves s (done ++ rest) t) (hu : Between s t done u)
    (hkeys : ((done ++ rest).map Parameter.key).Nodup)
    (hunread : (done ++ rest).Pairwise Parameter.Unread) : u.enrollAll rest = .ok t := by
  induction rest generalizing done u with
  -- When nothing is left, all keys are those of the solution.
  | nil =>
    rw [List.append_nil] at h
    have hut : u = t := by
      refine eq_of_sameAt fun key => ?_
      by_cases hin : key ∈ done.map Parameter.key
      · exact hu.reached key hin
      · exact (hu.kept key hin).trans (h.sameAt hin).symm
    rw [hut]
    rfl
  | cons p rest ih =>
    obtain ⟨v, hv, hbetween⟩ := h.next hu hkeys hunread
    rw [List.append_cons] at h hkeys hunread
    exact enrollAll_cons.mpr ⟨v, hv, ih h hbetween hkeys hunread⟩

/-- Whenever there is a solution, the registration succeeds and ends in it. -/
theorem Solves.enrollAll_eq (h : Solves s parameters t)
    (hkeys : (parameters.map Parameter.key).Nodup)
    (hunread : parameters.Pairwise Parameter.Unread) : s.enrollAll parameters = .ok t := by
  have hstart : Between s t [] s :=
    ⟨fun _ hin => absurd hin List.not_mem_nil, fun key _ => SameAt.refl key s⟩
  exact enrollAll_of_between h hstart hkeys hunread

/-- Parameters are registered just when there are an order of registration and a solution, and then
in the solution. -/
theorem register_eq_ok_iff {run : String} (hkeys : (parameters.map Parameter.key).Nodup)
    (hapart : Parameter.WorkflowSourcesApart parameters) :
    (register run parameters s).result = .ok () ∧ (register run parameters s).state = t ↔
      (∃ ordered, Parameter.registrationOrder parameters = .ok ordered) ∧
        Solves s parameters t := by
  -- An order of registration keeps the keys distinct, and nothing in it reads what comes later.
  have hordered : ∀ ordered, Parameter.registrationOrder parameters = .ok ordered →
      ordered.Perm parameters ∧ (ordered.map Parameter.key).Nodup ∧
        ordered.Pairwise Parameter.Unread := by
    intro ordered horder
    have hperm := Parameter.registrationOrder_perm horder
    exact ⟨hperm, (hperm.map _).nodup_iff.mpr hkeys,
      Parameter.unread_of_registrationOrder horder hkeys hapart⟩
  rw [register_ok_iff]
  constructor
  · -- A registration that succeeds has solved the equations in its order, and so in any order.
    rintro ⟨ordered, horder, hall⟩
    obtain ⟨hperm, hkeys', hunread⟩ := hordered ordered horder
    exact ⟨⟨ordered, horder⟩, (Solves.of_enrollAll hall hkeys' hunread).perm hperm⟩
  · -- A solution can be reached in the order of registration, one parameter at a time.
    rintro ⟨⟨ordered, horder⟩, hsolves⟩
    obtain ⟨hperm, hkeys', hunread⟩ := hordered ordered horder
    exact ⟨ordered, horder, (hsolves.perm hperm.symm).enrollAll_eq hkeys' hunread⟩

end Store

namespace Context

/-- Registering the parameters of a step does not depend on the order in which they are declared,
and solves the equations of those that are due. Two declarations of the same parameters both fail,
or both succeed and leave the same context; and then each context parameter with a workflow or
context source that was undefined or waited for its value has its entry in the object that is the
value of its source. One that names itself as its workflow source has its entry in the object that
its key had before. -/
theorem register_of_perm (c : Context) (organization : String) {parameters others : List Parameter}
    (hperm : parameters.Perm others) (hkeys : (parameters.map Parameter.key).Nodup)
    (hapart : Parameter.WorkflowSourcesApart parameters) :
    ((∃ e, (register parameters organization c).result = .error e) ∧
        ∃ e, (register others organization c).result = .error e) ∨
      ((register parameters organization c).result = .ok () ∧
        (register others organization c).result = .ok () ∧
        (register parameters organization c).state = (register others organization c).state ∧
        ∀ p, .context p ∈ parameters → p.Reads →
          c.store.isDefined p.key = false ∨ c.store.isPending p.key = true →
          let final := (register parameters organization c).state.store
          ((p.source.kind = .workflow → p.source.key ≠ p.key) → Store.TakesEntry final final p) ∧
            (p.source.key = p.key → Store.TakesEntry c.store final p)) := by
  have hkeys' : (others.map Parameter.key).Nodup := (hperm.map _).nodup_iff.mp hkeys
  have hapart' : Parameter.WorkflowSourcesApart others :=
    fun p q hp hq => hapart p q (hperm.symm.subset hp) (hperm.symm.subset hq)
  obtain ⟨hresult, hstate⟩ := register_eq c parameters organization
  obtain ⟨hresult', hstate'⟩ := register_eq c others organization
  -- Both succeed when one does, since they have an order together and a solution together.
  have hboth : ∀ t, ((Store.register c.run parameters c.store).result = .ok () ∧
      (Store.register c.run parameters c.store).state = t) ↔
      ((Store.register c.run others c.store).result = .ok () ∧
      (Store.register c.run others c.store).state = t) := by
    intro t
    rw [Store.register_eq_ok_iff hkeys hapart, Store.register_eq_ok_iff hkeys' hapart']
    constructor
    · rintro ⟨⟨ordered, horder⟩, hsolves⟩
      have horder' := Parameter.registrationOrder_of_perm hperm horder
      exact ⟨horder', hsolves.perm hperm⟩
    · rintro ⟨⟨ordered, horder⟩, hsolves⟩
      have horder' := Parameter.registrationOrder_of_perm hperm.symm horder
      exact ⟨horder', hsolves.perm hperm.symm⟩
  rw [hresult, hresult', hstate, hstate']
  -- Either both fail or both succeed with the same store.
  cases hfirst : (Store.register c.run parameters c.store).result with
  | error e =>
    cases hsecond : (Store.register c.run others c.store).result with
    | error e' => exact Or.inl ⟨⟨e, rfl⟩, ⟨e', rfl⟩⟩
    | ok _ =>
      have hok := ((hboth _).mpr ⟨hsecond, rfl⟩).1
      rw [hfirst] at hok
      cases hok
  | ok _ =>
    obtain ⟨hsecond, hsame⟩ := (hboth _).mp ⟨hfirst, rfl⟩
    refine Or.inr ⟨rfl, hsecond, by rw [hsame], fun p hp hreads hdue => ?_⟩
    obtain ⟨⟨ordered, horder⟩, hsolves⟩ :=
      (Store.register_eq_ok_iff hkeys hapart).mp ⟨hfirst, rfl⟩
    obtain ⟨_, heq, henrolled⟩ := hsolves.due _ hp (Store.isRegistered_eq_false_iff.mpr hdue)
    cases heq
    have hentry := henrolled.entry hreads
    constructor
    · -- Only a workflow source can be its own, and that is excluded here.
      intro hworkflow
      have hother : p.source.key ≠ p.key := by
        rcases hreads with hkind | hkind
        · exact hworkflow hkind
        · exact Parameter.source_ne_of_registrationOrder horder hp hkind
      rwa [Store.sourceFor, if_neg hother] at hentry
    · -- One that is its own source has read what was there at first.
      intro hself
      rwa [Store.sourceFor, if_pos hself] at hentry

/-- A chain of context parameters resolves when the last of it is declared first. -/
theorem register_of_perm_chain :
    let root := ContextParameter.ofSource "root" ⟨.workflow, "input"⟩
    let address := ContextParameter.ofSource "address" ⟨.context, "root"⟩
    let street := ContextParameter.ofSource "street" ⟨.context, "address"⟩
    let chain := [Parameter.context root, .context address, .context street]
    let c := (Context.fresh .standard "run" ⟨"acme", none⟩ 0).set "input"
      (.object [("root", .object [("address", .object [("street", .text "Main Street")])])])
    chain.Perm chain.reverse ∧ (chain.map Parameter.key).Nodup ∧
      Parameter.WorkflowSourcesApart chain ∧
      (register chain.reverse "acme" c).result = .ok () ∧
      (register chain "acme" c).state = (register chain.reverse "acme" c).state ∧
      (register chain "acme" c).state.get "street" = .ok (.text "Main Street") := by
  intro root address street chain c
  have hperm : chain.Perm chain.reverse := chain.reverse_perm.symm
  have hkeys : (chain.map Parameter.key).Nodup := by decide
  have hapart : Parameter.WorkflowSourcesApart chain := by
    intro p q hp hq hkind hne
    simp only [chain, List.mem_cons, List.not_mem_nil, or_false, Parameter.context.injEq] at hp hq
    -- Only the first parameter has a workflow source, and no other one has its key.
    rcases hp with rfl | rfl | rfl
    · rcases hq with rfl | rfl | rfl <;> decide
    · exact absurd hkind (by decide)
    · exact absurd hkind (by decide)
  have hok : (register chain "acme" c).result = .ok () := by cbv
  rcases register_of_perm c "acme" hperm hkeys hapart with ⟨⟨e, he⟩, -⟩ | ⟨-, hother, hsame, -⟩
  · rw [hok] at he
    cases he
  · exact ⟨hperm, hkeys, hapart, hother, hsame, by cbv⟩

/-- A parameter whose workflow source has its own key replaces the object that it reads, so that in
the end its source is no object. -/
theorem register_own_source :
    let a := ContextParameter.ofSource "a" ⟨.workflow, "a"⟩
    let c := (fresh .standard "run" ⟨"acme", none⟩ 0).set "a" (.object [("a", .int 1)])
    let final := (register [.context a] "acme" c).state.store
    ([Parameter.context a].map Parameter.key).Nodup ∧
      Parameter.WorkflowSourcesApart [.context a] ∧ a.Reads ∧ c.store.isDefined a.key = false ∧
      (register [.context a] "acme" c).result = .ok () ∧ final.value? "a" = some (.int 1) ∧
      ¬ Store.TakesEntry final final a := by
  intro a c final
  have hapart : Parameter.WorkflowSourcesApart [.context a] := by
    intro p q hp hq _ hne
    cases List.mem_singleton.mp hp
    cases List.mem_singleton.mp hq
    exact absurd rfl hne
  have hvalue : final.value? "a" = some (.int 1) := by cbv
  -- A value that is no object has no entries to take.
  refine ⟨by decide, hapart, Or.inl rfl, by decide, by cbv, hvalue, ?_⟩
  rintro ⟨members, hmembers, -⟩
  have hobject : some (Json.int 1) = some (.object members) := hvalue.symm.trans hmembers
  cases hobject

end Context

end RunParams
