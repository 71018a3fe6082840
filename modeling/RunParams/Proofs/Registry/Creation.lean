import RunParams.Proofs.Isolation.Minting
import RunParams.Proofs.Registry.Requests

/-!
# What the creation of a context does in each stretch

A creation looks whether its run has a live context, binds the declarations of the run in a context
of its own, and looks again before it makes the context live. Up to its last stretch it changes
nothing but the ids that are drawn (`World.Aside`). What is to be remembered of it meanwhile is how
the handles of its context begin and which ids it has drawn itself (`Creation`), for these are the
ids that the handles of the context are made from.

`Registry.follows_create` says so of every stretch, and what the last one comes to
(`Creation.Returns`): either the context is added and made live under a run that has none, at once,
or there is an error and nothing has changed.
-/

namespace RunParams

/-- Nothing has changed for the registry and no step has been executed. Ids may have been drawn. -/
structure World.Aside (w w' : World) : Prop where
  quiet : Registry.Quiet w w'
  calls : w'.calls = w.calls
  draws : w.around.draws.Later w'.around.draws

/-- Nothing happens in no time. -/
theorem World.Aside.refl (w : World) : w.Aside w := ⟨.refl w, rfl, .refl _⟩

namespace Registry

/-- What is to be remembered of a creation. -/
structure Creation where
  /-- How the handles of its context begin, as soon as it has one. -/
  lead : Option String
  /-- The ids that it has drawn. -/
  ids : List Uuid

variable {run : String} {organization : Organization} {declarations : Declarations}
  {q q' : Creation} {start w w' : World} {c : Context}

namespace Creation

/-- A creation that has not looked yet. -/
def looking : Creation := ⟨none, []⟩

/-- What is to be remembered when a creation has a context and has drawn more ids. -/
def after (q : Creation) (start w : World) : Creation :=
  ⟨some (q.lead.getD start.settings.handleLead),
    q.ids ++ start.around.draws.since w.around.draws⟩

/-- What a creation does in a stretch that ends in a wait. -/
structure Step (q : Creation) (start w : World) (wait : Wait) (q' : Creation) : Prop where
  aside : start.Aside w
  phase : q' = q ∧ q.lead = none ∨ q' = q.after start w

/-- The handles of a vault begin as is remembered and are made from the ids that were drawn. -/
structure Fills (q : Creation) (v : Vault) : Prop where
  lead : q.lead = some v.lead
  minted : v.Minted q.ids

/-- What a creation does in its last stretch, and what it returns. -/
inductive Returns (run : String) (organization : Organization) (declarations : Declarations)
    (q : Creation) (start w : World) : Except BindingError Nat → Prop
  | created {c : Context} (free : start.live.get? run = none)
    (own : ∃ settings, BoundFor settings run organization declarations c) (named : c.run = run)
    (fills : q.Fills c.vault) (contexts : w.contexts = start.contexts ++ [c])
    (live : w.live = start.live.insert run ⟨start.contexts.length, c.createdAt⟩)
    (settings : w.settings = start.settings) (calls : w.calls = start.calls)
    (draws : w.around.draws = start.around.draws) :
    Returns run organization declarations q start w (.ok start.contexts.length)
  | refused {e : BindingError} (aside : start.Aside w) :
    Returns run organization declarations q start w (.error e)

end Creation

/-- After minting work the ids that were drawn in the stretch are to be remembered, and what is in
the vault is made from what is remembered. -/
theorem Creation.after_mints {d t : Desk} (h : d.Mints t) (hquiet : Quiet start w)
    (hcalls : w.calls = start.calls) (hdraws : d.around.draws = start.around.draws)
    (hlead : d.context.vault.lead = q.lead.getD start.settings.handleLead)
    (hminted : d.context.vault.Minted q.ids) :
    start.Aside { w with around := t.around } ∧
      (q.after start { w with around := t.around }).Fills t.context.vault := by
  have hsince : start.around.draws.Later t.around.draws := hdraws ▸ h.fills.later
  have hnew := h.fills.minted q.ids hminted
  rw [show d.toMint.draws = start.around.draws from hdraws] at hnew
  exact ⟨⟨⟨hquiet.live, hquiet.contexts, hquiet.settings⟩, hcalls, hsince⟩,
    congrArg some (h.fills.lead.trans hlead).symm, hnew⟩

/-- Binding declarations beside the world: the handles in the context are made from the ids that
are drawn on the way, and the context is one with which the binding may end. -/
theorem follows_beside {α : Type} {whole p : Paused Desk BindingError α} {d : Desk}
    (hp : p.KeepsTo Desk.Mints d)
    (hend : ∀ t r, p.CanEnd Desk.SameContext t r → whole.CanEnd Desk.SameContext t r)
    (hquiet : Quiet start w) (hcalls : w.calls = start.calls)
    (hdraws : d.around.draws = start.around.draws) (hrun : d.context.run = run)
    (hlead : d.context.vault.lead = q.lead.getD start.settings.handleLead)
    (hminted : d.context.vault.Minted q.ids) :
    (p.beside (fun context (w : World) => (⟨context, w.around⟩ : Desk)) Desk.context
      (fun d w => { w with around := d.around }) w).Follows Creation.Step
      (fun q a s r => a.Aside s ∧ ∀ c u, r = .ok (c, u) → c.run = run ∧
        (q.after a s).Fills c.vault ∧ ∃ around, whole.CanEnd Desk.SameContext ⟨c, around⟩ (.ok u))
      q start := by
  -- The induction is on the binding. While it waits others may draw ids as well, so the ids that
  -- may have been drawn are those since the creation began.
  induction p generalizing d q start w with
  | ended t r =>
    have hmints : d.Mints t := hp
    obtain ⟨haside, hfills⟩ := Creation.after_mints hmints hquiet hcalls hdraws hlead hminted
    -- A binding that fails leaves no context.
    refine ⟨haside, fun c u hr => ?_⟩
    cases r with
    | error e => cases hr
    | ok a =>
      cases hr
      exact ⟨hmints.run.trans hrun, hfills, t.around, hend t (.ok u) (.ended t _)⟩
  | waiting t wait resume ih =>
    obtain ⟨hmints, hrest⟩ := hp
    obtain ⟨haside, hfills⟩ := Creation.after_mints hmints hquiet hcalls hdraws hlead hminted
    refine ⟨q.after start { w with around := t.around }, ⟨haside, .inr rfl⟩, fun s => ?_⟩
    -- Others may have changed anything but the context itself.
    have hsame : Desk.SameContext t ⟨t.context, s.around⟩ := rfl
    exact ih ⟨t.context, s.around⟩ (hrest ⟨t.context, s.around⟩ trivial)
      (fun u r hu => hend u r (.waiting hsame hu)) (.refl s) rfl rfl (hmints.run.trans hrun)
      (Option.some.inj hfills.lead).symm hfills.minted

/-- Binding the declarations of a run in a fresh context. -/
theorem follows_bind {settings : ResolverSettings} {createdAt : Nat}
    (hquiet : Quiet start w) (hcalls : w.calls = start.calls)
    (hdraws : w.around.draws = start.around.draws)
    (hlead : settings.handleLead = q.lead.getD start.settings.handleLead) :
    (World.bind (.fresh settings run organization createdAt) declarations w).Follows Creation.Step
      (fun q a s r => a.Aside s ∧ ∀ c, r = .ok c → c.run = run ∧ (q.after a s).Fills c.vault ∧
        ∃ settings, BoundFor settings run organization declarations c) q start := by
  let d : Desk := ⟨.fresh settings run organization createdAt, w.around⟩
  have hrun : d.context.run = run := rfl
  have hminted : d.context.vault.Minted q.ids :=
    (Vault.minted_ofLead settings.handleLead).mono (List.nil_subset q.ids)
  have hbound := follows_beside (Desk.keepsTo_bindAll declarations d) (fun _ _ h => h) hquiet hcalls
    hdraws hrun hlead hminted
  refine hbound.bind (fun q a s r h => ?_) fun q a s e h => ⟨h.1, fun c hc => nomatch hc⟩
  obtain ⟨context, u⟩ := r
  obtain ⟨hname, hfills, around, hend⟩ := h.2 context u rfl
  refine ⟨h.1, fun c hc => ?_⟩
  cases hc
  exact ⟨hname, hfills, settings, createdAt, w.around, around, hend⟩

/-- A creation goes on as `Creation.Step` says, and ends as `Creation.Returns` says. -/
theorem follows_create (run : String) (organization : Organization) (declarations : Declarations)
    (h : start.Aside w) :
    (create run organization declarations w).Follows Creation.Step
      (Creation.Returns run organization declarations) .looking start := by
  refine ⟨.looking, ⟨h, .inl ⟨rfl, rfl⟩⟩, fun s => ?_⟩
  show ((if contains s run then _ else _ : Program World BindingError Nat) s).Follows _ _ _ _
  -- A run that is live is refused before anything is bound.
  cases contains s run with
  | true => exact .refused (.refl s)
  | false =>
    -- The reading of the calendar is in the same stretch as the first look.
    let dated : World := { s with calendar := s.calendar + 1 }
    have hquiet : Quiet s dated := ⟨rfl, rfl, rfl⟩
    show ((World.bind (.fresh s.settings run organization (s.calendar + 1)) declarations dated).bind
      fun c => Program.turn >>= fun _ => insert run c).Follows _ _ _ _
    refine (follows_bind (q := .looking) hquiet rfl rfl rfl).bind ?_ ?_
    · rintro q a s c ⟨haside, hmade⟩
      obtain ⟨hname, hfills, hown⟩ := hmade c rfl
      refine ⟨q.after a s, ⟨haside, .inr rfl⟩, fun s' => ?_⟩
      -- The second look and the insertion are one stretch.
      show (insert run c s').Follows _ _ _ _
      -- The id may have been taken while the declarations were bound.
      unfold insert
      cases hcontains : contains s' run with
      | true => exact .refused (.refl s')
      | false =>
        exact .created (contains_eq_false_iff.mp hcontains) hown hname hfills rfl rfl rfl rfl rfl
    · -- A binding that fails is the end of the creation, and its context is dropped.
      rintro q a s e ⟨haside, -⟩
      exact .refused haside

end Registry

end RunParams
