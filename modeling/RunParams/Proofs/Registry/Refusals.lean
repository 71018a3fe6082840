import RunParams.Proofs.Registry.Agreement

/-!
# When creations succeed

That a creation which fails changes nothing would be true as well of a registry that refuses every
creation. What is shown here is that creations do not fail for nothing. In whatever order calls take
turns, a creation that fails has found an entry of its run when its last stretch began, or its
declarations do not let themselves be bound (`Traffic.explained`). So it succeeds when there is
nothing against it at that moment (`Traffic.creates`). And if the others let it, it comes to that
moment: a creation for a run without an entry that is resumed until it returns inserts its context
(`Traffic.completes`).
-/

namespace RunParams.Registry

variable {settings : ResolverSettings} {backend : Backend} {draws : Draws} {t : Traffic}
  {organization : Organization} {declarations : Declarations}

/-- If a creation has failed, there was a reason when its last stretch began. -/
def Return.Explained (settings : ResolverSettings) (r : Return) : Prop :=
  ∀ run organization declarations e, r.request = .create run organization declarations →
    r.result = .error e → Refusal settings run organization declarations r.before e

/-- A creation that waits will fail for a reason only. -/
def Waiting.Explains (settings : ResolverSettings) (call : Waiting) : Prop :=
  ∀ run organization declarations, call.request = .create run organization declarations →
    ∀ w, HasSettings settings w → (call.resume w).Meets (HasSettings settings) Quiet
      (Settles settings run organization declarations) w

/-- Creations have failed, and will fail, for a reason only. -/
structure Traffic.Explained (settings : ResolverSettings) (t : Traffic) : Prop where
  sound : t.Sound settings
  returned : ∀ r ∈ t.returned, r.Explained settings
  waiting : ∀ call ∈ t.waiting, call.Explains settings

/-- What was explained stays so after a stretch of a call. -/
theorem Traffic.Explained.stretch (h : t.Explained settings) {request : Request}
    {p : Paused World BindingError Response} {others : List Waiting}
    (hp : ∀ run organization declarations, request = .create run organization declarations →
      p.Meets (HasSettings settings) Quiet (Settles settings run organization declarations) t.world)
    (hothers : others ⊆ t.waiting) (hsound : (t.stretch others request p).Sound settings) :
    (t.stretch others request p).Explained settings := by
  refine ⟨hsound, ?_, ?_⟩
  · -- A return that has just come is explained by what the call has promised for its end.
    cases p with
    | waiting w wait resume => exact h.returned
    | ended w result =>
      intro r hr
      rcases List.mem_cons.mp hr with rfl | hearlier
      · exact fun run organization declarations e hrequest hresult =>
          (hp run organization declarations hrequest).2 e hresult
      · exact h.returned r hearlier
  · -- A call that waits now goes on with the promise that it had.
    cases p with
    | ended w result => exact fun call hcall => h.waiting call (hothers hcall)
    | waiting w wait resume =>
      intro call hcall
      rcases List.mem_append.mp hcall with hother | hlast
      · exact h.waiting call (hothers hother)
      · cases List.mem_singleton.mp hlast
        exact fun run organization declarations hrequest =>
          (hp run organization declarations hrequest).2

/-- What was explained stays so after a move. -/
theorem Traffic.Explained.move (h : t.Explained settings) (m : Move) :
    (t.move m).Explained settings := by
  -- That the traffic is sound is needed for the settings, which a call relies on when it goes on.
  have hsound := h.sound.move m
  -- A creation promises to explain its end from its first stretch on.
  cases m with
  | call request =>
    refine h.stretch ?_ (List.Subset.refl _) hsound
    rintro run organization declarations rfl
    exact meets_create organization declarations (Quiet.refl t.world)
  | resume number =>
    unfold Traffic.move at hsound ⊢
    cases hcall : t.waiting[number]? with
    | none =>
      simp only [hcall]
      exact h
    | some call =>
      simp only [hcall] at hsound ⊢
      refine h.stretch ?_ List.eraseIdx_subset hsound
      intro run organization declarations hrequest
      exact h.waiting call (List.mem_of_getElem? hcall) run organization declarations hrequest
        t.world h.sound.same
  | pass ticks nanos => exact ⟨hsound, h.returned, h.waiting⟩

/-- What is explained stays so. -/
theorem Traffic.Explained.run (h : t.Explained settings) (moves : List Move) :
    (t.run moves).Explained settings := by
  induction moves generalizing t with
  | nil => exact h
  | cons m rest ih => exact ih (h.move m)

/-- Creations fail for a reason only, in whatever order calls take turns: when the last stretch of a
creation that fails began, there was an entry of its run, or its declarations do not let themselves
be bound. -/
theorem Traffic.explained (settings : ResolverSettings) (backend : Backend) (draws : Draws)
    (moves : List Move) : ∀ r ∈ ((Traffic.start settings backend draws).run moves).returned,
      r.Explained settings := by
  have hstart : (Traffic.start settings backend draws).Explained settings := by
    refine ⟨sound_start settings backend draws, ?_, ?_⟩
    · exact fun _ hr => absurd hr List.not_mem_nil
    · exact fun _ hcall => absurd hcall List.not_mem_nil
  exact (hstart.run moves).returned

/-- What has returned is lawful after what had returned before. -/
theorem Coherent.lawful_of_mem {contexts : List Context} {returned : List Return} {r : Return}
    (h : Coherent settings contexts returned) (hr : r ∈ returned) :
    ∃ earlier, r.Lawful settings contexts earlier := by
  -- The returns are coherent from the last one back, so each is lawful after those before it.
  induction returned with
  | nil => cases hr
  | cons latest earlier ih =>
    obtain ⟨-, hlawful, hearlier⟩ := h
    rcases List.mem_cons.mp hr with rfl | hr
    · exact ⟨earlier, hlawful⟩
    · exact ih hearlier hr

/-- When a run has no entry and nothing is wrong with its declarations, there is no reason to refuse
it a context. -/
theorem not_refusal {run : String} {live : KeyMap Entry} (hfree : live.get? run = none)
    (hbinds : ∀ e, ¬ BindingFails settings run organization declarations e) (e : BindingError) :
    ¬ Refusal settings run organization declarations live e := by
  -- A refusal has one of two grounds: the id is taken, or the declarations cannot be bound.
  intro hrefusal
  cases hrefusal with
  | taken there =>
    obtain ⟨entry, hentry⟩ := Option.isSome_iff_exists.mp there
    rw [hfree] at hentry
    cases hentry
  | unbound fails => exact hbinds e fails

/-- A creation that ends at a moment when its run has no entry inserts its context, if nothing is
wrong with its declarations. -/
theorem Traffic.creates {moves : List Move} {run : String} {before after : KeyMap Entry}
    {result : Except BindingError Response}
    (hreturned : ⟨.create run organization declarations, result, before, after⟩ ∈
      ((Traffic.start settings backend draws).run moves).returned)
    (hfree : before.get? run = none)
    (hbinds : ∀ e, ¬ BindingFails settings run organization declarations e) :
    ∃ number c, result = .ok (.context number) ∧
      ((Traffic.start settings backend draws).run moves).world.contexts[number]? = some c ∧
      BoundFor settings run organization declarations c ∧
      after = before.insert run ⟨number, c.createdAt⟩ := by
  have hsound := (sound_start settings backend draws).run moves
  obtain ⟨earlier, hlawful⟩ := hsound.agrees.coherent.lawful_of_mem hreturned
  -- A creation that is refused has a ground for it, and neither of the grounds is there.
  cases hlawful with
  | created free there own fresh => exact ⟨_, _, rfl, there, own, rfl⟩
  | @refused _ _ _ _ e =>
    have hrefusal : Refusal settings run organization declarations before e :=
      explained settings backend draws moves _ hreturned run organization declarations e rfl rfl
    exact absurd hrefusal (not_refusal hfree hbinds e)

/-- A call that is resumed until it returns does so, since no program waits for ever if it is always
resumed. The last of the calls that wait is again the last one when it has to wait once more. -/
theorem Traffic.finishes (request : Request) (others : List Waiting)
    {p : Paused World BindingError Response}
    {post : World → World → Except BindingError Response → Prop}
    (hp : p.Meets (HasSettings settings) Quiet post t.world)
    (hsame : HasSettings settings t.world) :
    ∃ turns w w' result, Quiet t.world w ∧ post w w' result ∧
      (t.stretch others request p).run (List.replicate turns (.resume others.length)) =
        ⟨w', others, ⟨request, result, w.live, w'.live⟩ :: t.returned⟩ := by
  -- The induction is on what is left of the call; each turn takes it to its next wait.
  induction p generalizing t with
  | ended w result => exact ⟨0, t.world, w, result, .refl _, hp, rfl⟩
  | waiting s wait resume ih =>
    obtain ⟨hquiet, hrest⟩ := hp
    let next : Traffic := ⟨s, others ++ [⟨request, resume⟩], t.returned⟩
    have hnext : HasSettings settings s := hquiet.settings.trans hsame
    have hresumed : (resume s).Meets (HasSettings settings) Quiet post next.world := hrest s hnext
    obtain ⟨turns, w, w', result, hlater, hpost, hrun⟩ := ih s hresumed hnext
    refine ⟨turns + 1, w, w', result, ⟨hlater.live.trans hquiet.live,
      hlater.contexts.trans hquiet.contexts, hlater.settings.trans hquiet.settings⟩, hpost, ?_⟩
    -- The call stands last among those that wait, so resuming this number lets it go on.
    have hmove : next.move (.resume others.length) = next.stretch others request (resume s) := by
      have hcall : next.waiting[others.length]? = some ⟨request, resume⟩ :=
        List.getElem?_concat_length
      have hothers : next.waiting.eraseIdx others.length = others := by
        rw [List.eraseIdx_append_of_length_le (Nat.le_refl _), Nat.sub_self]
        exact List.append_nil others
      unfold Traffic.move
      simp only [hcall, hothers]
      rfl
    show (next.move (.resume others.length)).run _ = _
    rw [hmove, hrun]

/-- A creation for a run that has no entry comes to its end and inserts its context, if nothing is
wrong with its declarations and the others let it: it is called at any moment of any traffic, and
then resumed until it returns. The other calls that wait are waiting still. -/
theorem Traffic.completes {moves : List Move} {run : String}
    (hfree : ((Traffic.start settings backend draws).run moves).world.live.get? run = none)
    (hbinds : ∀ e, ¬ BindingFails settings run organization declarations e) :
    let t := (Traffic.start settings backend draws).run moves
    ∃ turns number c, let t' := t.run (.call (.create run organization declarations) ::
        List.replicate turns (.resume t.waiting.length))
      t'.returned = ⟨.create run organization declarations, .ok (.context number), t.world.live,
        t.world.live.insert run ⟨number, c.createdAt⟩⟩ :: t.returned ∧
      t'.waiting = t.waiting ∧ t'.world.contexts[number]? = some c ∧
      BoundFor settings run organization declarations c := by
  intro t
  have hsound : t.Sound settings := (sound_start settings backend draws).run moves
  have hmeets : ((Request.create run organization declarations).program t.world).Meets
      (HasSettings settings) Quiet (Settles settings run organization declarations) t.world :=
    meets_create organization declarations (Quiet.refl t.world)
  obtain ⟨turns, w, w', result, hquiet, ⟨hreturns, hrefusal⟩, hrun⟩ :=
    finishes (.create run organization declarations) t.waiting hmeets hsound.same
  -- Up to the last stretch nothing has happened to the entries, so the run has none then.
  have hsame : w.live = t.world.live := hquiet.live
  cases hreturns with
  | @created _ _ _ _ _ c free own contexts live same =>
    have hstart : t.run (.call (.create run organization declarations) ::
        List.replicate turns (.resume t.waiting.length)) = _ := hrun
    refine ⟨turns, w.contexts.length, c, ?_⟩
    rw [hstart]
    refine ⟨?_, rfl, ?_, own⟩
    · rw [live, hsame]
    · show w'.contexts[w.contexts.length]? = some c
      rw [contexts, List.getElem?_concat_length]
  | @refused _ _ _ _ _ e quiet =>
    exact absurd (hrefusal e rfl) (not_refusal (hsame ▸ hfree) hbinds e)

/-- Nothing is wrong with declarations of nothing. -/
theorem not_bindingFails_none (settings : ResolverSettings) (run : String)
    (organization : Organization) (e : BindingError) :
    ¬ BindingFails settings run organization .none e := by
  rintro ⟨createdAt, around, d, hend⟩
  obtain ⟨-, he⟩ := hend.of_ended
  cases he

/-- A run that declares nothing gets a context as long as it has none, whatever has happened. -/
example (moves : List Move) (run : String)
    (hfree : ((Traffic.start settings backend draws).run moves).world.live.get? run = none) :
    let t := (Traffic.start settings backend draws).run moves
    ∃ (turns number : Nat) (c : Context), (t.run (.call (.create run organization .none) ::
      List.replicate turns (.resume t.waiting.length))).world.contexts[number]? = some c := by
  obtain ⟨turns, number, c, -, -, hthere, -⟩ := Traffic.completes hfree
    (not_bindingFails_none settings run organization)
  exact ⟨turns, number, c, hthere⟩

end RunParams.Registry
