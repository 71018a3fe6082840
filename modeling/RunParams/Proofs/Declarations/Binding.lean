import RunParams.Proofs.Declarations.Registering

/-!
# Binding all declarations of a run

A run binds its declarations kind after kind, but what it does to one of them depends on nothing but
what was registered before it. So the four kinds are one list (`Declarations.inOrder`), and binding
goes through it until a declaration fails (`Desk.bindAll_eq`). By induction over the list the
context is at each time what the declarations up to there make of it (`Desk.reached_each`).

From that `Desk.bindAll_registers` tells what is bound in the end: which keys have values and which
values, what the vault holds, and which error there is if not all declarations can be bound.
-/

namespace RunParams.Desk

open Program

variable {i : Inquiry} {done : List Registered} {ids : List Uuid} {d t : Desk} {took : Takings}
  {r : Except BindingError Unit}

/-- A declaration is bound in the same way again. -/
theorem repeats_bindOne (declaration : Declaration) : Repeats 0 (bindOne declaration) :=
  match declaration with
  | .binding b => repeats_bindWorkflow b
  | .output p => repeats_declareOutput p
  | .secret p => repeats_bindSecret p
  | .context p => repeats_onStore (Store.addContext p)

/-- One declaration after another is registered, up to the end or to the first one that fails. -/
theorem reached_each {declared : List Declaration} (hd : Reached i done ids d)
    (h : Ends (each bindOne declared) d took t r) (hdistinct : (ids ++ took.ids).Nodup) :
    ∃ more, Reached i (done ++ more) (ids ++ took.ids) t ∧
      ((r = .ok () ∧ more.map (·.declaration) = declared) ∨
        ∃ next rest e, declared = more.map (·.declaration) ++ next :: rest ∧
          i.find (done ++ more) next = .error e ∧ r = .error e) := by
  induction declared generalizing done ids d took with
  | nil =>
    obtain ⟨rfl, rfl, rfl⟩ := of_at_once (p := pure ()) rfl ⟨rfl, rfl, rfl⟩ h
    refine ⟨[], ?_, .inl ⟨rfl, rfl⟩⟩
    rwa [List.append_nil, show ids ++ Takings.none.ids = ids from List.append_nil ids]
  | cons first rest ih =>
    have hone := keepsTo_later (repeats_bindOne first)
    have hothers := keepsTo_later (repeats_each repeats_bindOne rest)
    rcases Paused.Ends.of_bind (hone d) (fun _ => hothers) h with
      ⟨s, u, one, others, rfl, hfirst, hlater⟩ | ⟨e, rfl, hfirst⟩
    · -- The first declaration is registered, and the others after it.
      rw [ids_append] at hdistinct ⊢
      have hdeals := deals_bindOne hd hfirst (List.nodup_append.mp hdistinct).1
      obtain ⟨finding, kept, -, hs⟩ := hdeals.of_ok
      obtain ⟨more, ht, hresult⟩ := ih hs hlater hdistinct
      rw [List.append_assoc] at ht hresult
      refine ⟨⟨first, finding, kept⟩ :: more, ht, ?_⟩
      rcases hresult with ⟨hr, hall⟩ | ⟨next, later, e, hprefix, hnext, hr⟩
      · exact .inl ⟨hr, congrArg (first :: ·) hall⟩
      · exact .inr ⟨next, later, e, congrArg (first :: ·) hprefix, hnext, hr⟩
    · -- The first declaration fails, so nothing more is registered.
      obtain ⟨hfind, ht⟩ := (deals_bindOne hd hfirst hdistinct).of_error
      rw [← List.append_nil done] at ht hfind
      exact ⟨[], ht, .inr ⟨first, rest, e, rfl, hfind, rfl⟩⟩

/-- One list of declarations after another. -/
theorem each_append {β : Type} (work : β → Program Desk BindingError Unit) (first rest : List β) :
    each work (first ++ rest) = each work first >>= fun _ => each work rest := by
  induction first with
  | nil => rfl
  | cons b first ih =>
    show (work b >>= fun _ => each work (first ++ rest)) = _
    rw [ih, ← Program.bind_assoc]
    rfl

/-- Declarations of one kind among the others. -/
theorem each_map {β γ : Type} (work : γ → Program Desk BindingError Unit) (f : β → γ)
    (declared : List β) : each work (declared.map f) = each (fun b => work (f b)) declared := by
  induction declared with
  | nil => rfl
  | cons b rest ih =>
    show (work (f b) >>= fun _ => each work (rest.map f)) = _
    rw [ih]
    rfl

/-- The declarations of a run are bound one after the other, and then that is reported. -/
theorem bindAll_eq (declarations : Declarations) :
    bindAll declarations = (each bindOne declarations.inOrder >>= fun _ => get >>= fun d =>
      report (.contextBound d.context.run d.context.store.definitions.size
        d.context.vault.size)) := by
  unfold Declarations.inOrder
  rw [each_append, each_append, each_append, each_map, each_map, each_map, each_map,
    Program.bind_assoc, Program.bind_assoc, Program.bind_assoc]
  rfl

/-- In a fresh context nothing is registered yet. -/
theorem reached_fresh {settings : ResolverSettings} {run : String} {organization : Organization}
    {createdAt : Nat} {around : Surroundings} (hsteady : around.backend.Steady) :
    Reached ⟨around.backend [], settings.fetchLimit, organization.id⟩ [] []
      ⟨.fresh settings run organization createdAt, around⟩ where
  registers := .nil
  stocked := ⟨hsteady, rfl, rfl, Vault.holdsExactly_ofLead settings.handleLead,
    Vault.minted_ofLead settings.handleLead⟩
  values := fun _ => rfl
  defined := fun _ => rfl

/-- Binding the declarations of a run in a fresh context can end. Let the stores answer every query
in one way, and the ids that are drawn be distinct. Then, however it ends, some declarations have
been registered: the keys that they define are defined, each key has the value that the last of them
has given it, and the vault holds just what has been put into it for them. These are all of them if
it succeeds, and then the keys that have values are those of the workflow parameters, of the
credentials, and of the external secrets that the store has. Otherwise they are those before the
first one that cannot be registered, and the error is that of this one. -/
theorem bindAll_registers (declarations : Declarations) (settings : ResolverSettings)
    (run : String) (organization : Organization) (createdAt : Nat) (around : Surroundings) :
    let start : Desk := ⟨.fresh settings run organization createdAt, around⟩
    let i : Inquiry := ⟨around.backend [], settings.fetchLimit, organization.id⟩
    (∃ took t r, Ends (bindAll declarations) start took t r) ∧
    (around.backend.Steady → ∀ took t r, Ends (bindAll declarations) start took t r →
      took.ids.Nodup → ∃ done, i.Registers done ∧
        (∀ key, t.context.hasParameter key = Registered.defines done key) ∧
        (∀ key, t.context.store.value? key = Registered.valueOf done key) ∧
        t.context.vault.HoldsExactly (Registered.ledger done) ∧
        ((r = .ok () ∧ done.map (·.declaration) = declarations.inOrder ∧
            ∀ key, t.context.has key = true ↔
              (∃ b ∈ declarations.bindings, b.parameter.key = key) ∨
              (∃ p, .credential p ∈ declarations.secrets ∧ p.key = key) ∨
              ∃ p text, .externalSecret p ∈ declarations.secrets ∧ p.key = key ∧
                i.secret p.secretKey = .ok (some text)) ∨
          ∃ next rest e, declarations.inOrder = done.map (·.declaration) ++ next :: rest ∧
            i.find done next = .error e ∧ r = .error e)) := by
  intro start i
  -- Some end there is: the run on its own, with no one else at the stores.
  have halone : ∀ (_ : Wait) (d : Desk), SameStores d d := fun _ _ => ⟨rfl, rfl⟩
  have hend := Paused.canEnd_alone (fun _ d => d) halone (bindAll declarations start)
  obtain ⟨took, hends⟩ := hend.ends (Surroundings.meter.on Desk.around) start
  refine ⟨⟨took, _, _, hends⟩, fun hsteady took t r h hdistinct => ?_⟩
  have hfresh : Reached i [] [] start := reached_fresh hsteady
  unfold Ends at h
  rw [bindAll_eq] at h
  have hreport := keepsTo_later (p := get >>= fun d => report
      (.contextBound d.context.run d.context.store.definitions.size d.context.vault.size))
    (repeats_look (fun _ => repeats_report _) fun _ _ _ => rfl)
  have heach := keepsTo_later (repeats_each repeats_bindOne declarations.inOrder)
  rcases Paused.Ends.of_bind (heach start) (fun _ => hreport) h with
    ⟨s, u, first, rest, rfl, hfirst, hrest⟩ | ⟨e, rfl, hfirst⟩
  · -- The report leaves the context as the declarations have left it.
    obtain ⟨rfl, rfl, rfl⟩ := of_at_once (p := get >>= fun d => report _) rfl ⟨rfl, rfl, rfl⟩ hrest
    rw [Takings.append_none] at hdistinct
    obtain ⟨done, hreached, ⟨-, hall⟩ | ⟨next, rest, e, -, -, hr⟩⟩ :=
      reached_each hfresh hfirst hdistinct
    · have hdone : Reached i done first.ids s := hreached
      refine ⟨done, hdone.registers, hdone.defined, hdone.values, hdone.stocked.holds,
        .inl ⟨rfl, hall, fun key => ?_⟩⟩
      have hhas : s.context.has key = (Registered.valueOf done key).isSome :=
        congrArg Option.isSome (hdone.values key)
      show s.context.has key = true ↔ _
      rw [hhas, hdone.registers.isSome_valueOf_iff, ← Inquiry.provides_iff, ← hall]
    · cases hr
  · -- The failure of one declaration is that of the whole, for the report is no longer reached.
    obtain ⟨done, hdone, ⟨hr, -⟩ | ⟨next, rest, e', hall, hfind, hr⟩⟩ :=
      reached_each hfresh hfirst hdistinct
    · cases hr
    · exact ⟨done, hdone.registers, hdone.defined, hdone.values, hdone.stocked.holds,
        .inr ⟨next, rest, e', hall, hfind, hr⟩⟩

/-- A credential parameter takes the key of a workflow parameter that has been bound to the same
credential, whose id is the value of another one. Of two external secrets the store has one. -/
theorem bindAll_registers_again :
    let declarations : Declarations :=
      ⟨[⟨.ofKey "login" .credentialId, .text "cred_1"⟩, ⟨.ofKey "id" .string, .text "cred_1"⟩],
        [], [],
        [.credential (.ofId "login" "id"), .externalSecret (.ofSecret "token" "k"),
          .externalSecret (.ofSecret "none" "n")]⟩
    let memory := (Memory.empty.addPassword "cred_1" "o_1" ⟨"u", "p", none⟩).addSecret "k" "s"
    let around : Surroundings := ⟨memory.backend, [], ⟨fun n => .random n, 0⟩, 0, []⟩
    let start : Desk := ⟨.fresh .standard "r" ⟨"o_1", none⟩ 0, around⟩
    let i : Inquiry := ⟨memory.backend [], none, "o_1"⟩
    ∃ took t done, Ends (bindAll declarations) start took t (.ok ()) ∧
      around.backend.Steady ∧ took.ids.Nodup ∧ i.Registers done ∧
      done.map (·.declaration) = declarations.inOrder ∧
      t.context.vault.HoldsExactly (Registered.ledger done) ∧
      t.context.has "token" = true := by
  intro declarations memory around start i
  have hsteady : around.backend.Steady := fun _ _ => rfl
  have hall := (bindAll_registers declarations .standard "r" ⟨"o_1", none⟩ 0 around).2 hsteady
  -- The stores take no time, so nothing is waited for.
  have hended : (match bindAll declarations start with
      | .ended t r => decide (r = .ok () ∧ (around.draws.since t.around.draws).Nodup)
      | .waiting .. => false) = true := by decide +kernel
  cases hprogram : bindAll declarations start with
  | waiting s w resume =>
    rw [hprogram] at hended
    cases hended
  | ended t r =>
    rw [hprogram] at hended
    obtain ⟨rfl, hdistinct⟩ := of_decide_eq_true hended
    have hends : Ends (bindAll declarations) start (around.taken t.around) t (.ok ()) := by
      unfold Ends
      rw [hprogram]
      exact .ended start t _
    obtain ⟨done, hdone, -, -, hholds, ⟨-, hinOrder, hhas⟩ | ⟨_, _, _, -, -, hr⟩⟩ :=
      hall _ t _ hends hdistinct
    · refine ⟨_, t, done, hends, hsteady, hdistinct, hdone, hinOrder, hholds, ?_⟩
      refine (hhas "token").mpr (.inr (.inr ⟨.ofSecret "token" "k", "s", ?_, rfl, rfl⟩))
      exact List.mem_cons_of_mem _ List.mem_cons_self
    · cases hr

end RunParams.Desk
