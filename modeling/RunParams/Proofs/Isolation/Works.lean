import RunParams.Proofs.BoundValues.Changes
import RunParams.Proofs.Program.Histories
import RunParams.Proofs.Registry.Creation

/-!
# What work at the registry does to the contexts

All that the registry is asked to do is a call, or a change of the live context of a run. Such work
looks things up at one moment and acts at a later one, so what has been found is to be remembered:
`Pursuit`. `Work.follows` says what a piece of work does in each of its stretches.

Whatever the stretch, it spares the runs to which the work is not addressed, changes one context at
most, and leaves the run and the vault of every context as they are (`Work.Respects`). A context is
added only as its creation returns it (`Work.Adds`).
-/

namespace RunParams

/-- A change leaves the context to its run. -/
theorem Context.run_change (c : Context) (change : Change) : (c.change change).run = c.run := by
  cases change with
  | register parameters organization =>
    show (Context.register parameters organization c).state.run = c.run
    rw [(Context.register_eq c parameters organization).2]
  | addContext p => rfl
  | record o v => rfl
  | set key value => rfl
  | annotate label fields => rfl

/-- What happens aside adds up. -/
theorem World.Aside.trans {w w' w'' : World} (h : w.Aside w') (h' : w'.Aside w'') :
    w.Aside w'' :=
  ⟨⟨h'.quiet.live.trans h.quiet.live, h'.quiet.contexts.trans h.quiet.contexts,
    h'.quiet.settings.trans h.quiet.settings⟩, h'.calls.trans h.calls, h.draws.trans h'.draws⟩

instance : Std.Refl World.Aside := ⟨World.Aside.refl⟩

instance : Trans World.Aside World.Aside World.Aside := ⟨World.Aside.trans⟩

namespace Registry

open Program

/-- Something that the registry is asked to do. -/
inductive Work where
  | request (request : Request)
  /-- A change of the live context of a run. -/
  | change (run : String) (change : Change)

namespace Work

/-- What is done. -/
def program : Work → Program World BindingError (Option Response)
  | request r => do return some (← r.program)
  | change run c => do
    Registry.act run c.action
    return none

/-- Whether work is addressed to a run. To discard what is too old is addressed to all of them. -/
def addresses : Work → String → Bool
  | request (.create run _ _), other | request (.get run), other
  | request (.contains run), other | request (.discard run), other => run = other
  | request (.discardExpired _), _ => true
  | change run _, other => run = other

end Work

/-- What is to be remembered of a piece of work. -/
inductive Pursuit where
  | plain
  | creating (creation : Creation)
  /-- A change has found the live context of its run. -/
  | found (number : Nat)

variable {work : Work} {q q' : Pursuit} {start w w' : World} {run : String} {wait : Wait}
  {ε α : Type}

namespace Work

/-- With what a piece of work begins. -/
def beginning : Work → Pursuit
  | request (.create _ _ _) => .creating .looking
  | _ => .plain

/-- What work does in a stretch that ends in a wait. -/
inductive Step : Work → Pursuit → World → World → Wait → Pursuit → Prop
  | creates {run : String} {organization : Organization} {declarations : Declarations}
    {q q' : Creation} {start w : World} {wait : Wait} (step : q.Step start w wait q') :
    Step (.request (.create run organization declarations)) (.creating q) start w wait
      (.creating q')
  | looks {run : String} {change : Change} {entry : Entry} {start w : World} {wait : Wait}
    (aside : start.Aside w) (there : start.live.get? run = some entry) :
    Step (.change run change) .plain start w wait (.found entry.context)
  | waits {work : Work} {start w : World} {wait : Wait} (aside : start.Aside w) :
    Step work .plain start w wait .plain

/-- What work does in its last stretch, and what it returns. -/
inductive Returns : Work → Pursuit → World → World → Except BindingError (Option Response) → Prop
  | created {run : String} {organization : Organization} {declarations : Declarations}
    {q : Creation} {start w : World} {result : Except BindingError Nat}
    (returns : q.Returns run organization declarations start w result) :
    Returns (.request (.create run organization declarations)) (.creating q) start w
      (result.map fun number => some (.context number))
  | changed {run : String} {change : Change} {number : Nat} {start w : World}
    {result : Except BindingError (Option Response)}
    (contexts : w.contexts =
      start.contexts.set number ((start.contexts.getD number default).change change))
    (live : w.live = start.live) (settings : w.settings = start.settings)
    (draws : start.around.draws.Later w.around.draws) :
    Returns (.change run change) (.found number) start w result
  | dropped {work : Work} {start w : World} {result : Except BindingError (Option Response)}
    (contexts : w.contexts = start.contexts)
    (live : ∀ run entry, w.live.get? run = some entry → start.live.get? run = some entry)
    (spared : ∀ run, work.addresses run = false → w.live.get? run = start.live.get? run)
    (settings : w.settings = start.settings)
    (draws : start.around.draws.Later w.around.draws) : Returns work .plain start w result

/-- A stretch that ends in a wait happens aside. -/
theorem Step.aside (h : work.Step q start w wait q') : start.Aside w := by
  cases h with
  | creates step => exact step.aside
  | looks aside there => exact aside
  | waits aside => exact aside

/-- Work that has happened aside may return. -/
theorem Returns.aside {result : Except BindingError (Option Response)} (h : start.Aside w)
    (work : Work) : work.Returns .plain start w result :=
  .dropped h.quiet.contexts (fun _ _ hentry => h.quiet.live ▸ hentry)
    (fun _ _ => by rw [h.quiet.live]) h.quiet.settings h.draws

/-- Work that happens aside does nothing else. -/
theorem follows_aside {p : Program World BindingError (Option Response)}
    (hp : p.KeepsTo World.Aside) (work : Work) (w : World) :
    (p w).Follows work.Step work.Returns .plain w := by
  refine ((hp w).follows fun _ _ _ haside => .waits haside).mono ?_
  rintro q start s r ⟨rfl, haside⟩
  exact .aside haside work

/-- Discarding the context of a run drops an entry that is the run's, if anything. -/
theorem returns_discardNow (run : String) (w : World)
    (result : Except BindingError (Option Response)) :
    (request (.discard run)).Returns .plain w (discardNow run w).2 result := by
  unfold discardNow
  -- Nothing happens to a registry without an entry, and else it loses this entry only.
  cases contains w run with
  | false => exact .aside (.refl w) _
  | true =>
    have hlive : ∀ other, (w.live.erase run).get? other =
        if other = run then none else w.live.get? other := w.live.get?_erase run
    refine .dropped rfl (fun other entry hentry => ?_) (fun other hspared => ?_) rfl (.refl _)
    · change (w.live.erase run).get? other = some entry at hentry
      rw [hlive] at hentry
      by_cases hother : other = run
      · rw [if_pos hother] at hentry
        cases hentry
      · rwa [if_neg hother] at hentry
    · have hother : other ≠ run := fun hsame => of_decide_eq_false hspared hsame.symm
      exact (hlive other).trans (if_neg hother)

/-- Discarding what is too old drops entries. -/
theorem returns_expireAt (now : Nat) (maxAge : Duration) (w : World)
    (result : Except BindingError (Option Response)) :
    (request (.discardExpired maxAge)).Returns .plain w (expireAt now maxAge w).2 result := by
  refine .dropped rfl (fun other entry hentry => ?_) (fun _ hspared => nomatch hspared) rfl
    (.refl _)
  change (w.live.filter _).get? other = some entry at hentry
  rw [KeyMap.get?_filter] at hentry
  exact (Option.filter_eq_some_iff.mp hentry).1

/-- The look for the live context of a run happens aside, and finds it if it is there. -/
theorem follows_look (run : String) (change : Change) (w : World) :
    (Registry.get run w).Follows (Work.change run change).Step
      (fun q start s r => q = .plain ∧ start.Aside s ∧
        ∀ number, r = .ok number → ∃ entry, start.live.get? run = some entry ∧
          entry.context = number) .plain w := by
  unfold Registry.get
  refine ⟨.plain, .waits (.refl w), fun s => ?_⟩
  have hseen : ∀ next : World → Program World BindingError Nat,
      (Paused.ended s (.ok ())).bind (fun _ => Program.get >>= next) = next s s := fun _ => rfl
  show ((Paused.ended s (.ok ())).bind fun _ => Program.get >>= _).Follows _ _ _ _
  rw [hseen]
  -- The look finds an entry of this turn or none.
  cases hlive : s.live.get? run with
  | some entry =>
    exact ⟨rfl, .refl s, fun number hnumber => ⟨entry, hlive, Except.ok.inj hnumber⟩⟩
  | none => exact ⟨rfl, .refl s, fun _ hnumber => by cases hnumber⟩

/-- A change finds the live context of its run and is done in it at once, however it ends. -/
theorem follows_act (run : String) (change : Change) (w : World) :
    (Registry.act run change.action w).Follows (Work.change run change).Step
      (fun q start s _ => ∀ result, (Work.change run change).Returns q start s result)
      .plain w := by
  unfold Registry.act
  refine (follows_look run change w).bind ?_ ?_
  · -- The context is found in one turn and changed in a later one.
    rintro _ start s number ⟨rfl, haside, hfound⟩
    obtain ⟨entry, hthere, rfl⟩ := hfound number rfl
    exact ⟨.found entry.context, .looks haside hthere, fun s' _ => .changed rfl rfl rfl (.refl _)⟩
  · rintro _ start s e ⟨rfl, haside, -⟩
    exact fun _ => .aside haside _

/-- Every piece of work goes on and returns as it should. -/
theorem follows (work : Work) (w : World) :
    (work.program w).Follows work.Step work.Returns work.beginning w := by
  have hturn : (Program.turn : Program World BindingError Unit).KeepsTo World.Aside :=
    keepsTo_waitFor .turn
  -- Requests that do not create make one step, after a turn in which nothing happens.
  cases work with
  | request request =>
    cases request with
    | create run organization declarations =>
      let work : Work := .request (.create run organization declarations)
      have hcreate : (create run organization declarations w).Follows work.Step
          (fun q a s r => work.Returns q a s (r.map fun number => some (.context number)))
          (.creating .looking) w :=
        Paused.Follows.map Pursuit.creating
          (follows_create run organization declarations (.refl w))
          (fun _ _ _ _ _ hstep => .creates hstep) fun _ _ _ _ hreturns => .created hreturns
      have hresponse : ((create run organization declarations w).bind fun number s =>
          .ended s (.ok (Response.context number))).Follows work.Step
          (fun q a s r => work.Returns q a s (r.map some)) (.creating .looking) w :=
        hcreate.bind (fun _ _ _ _ h => h) fun _ _ _ _ h => h
      exact hresponse.bind (fun _ _ _ _ h => h) fun _ _ _ _ h => h
    | get run =>
      refine follows_aside (KeepsTo.bind (KeepsTo.bind ?_ fun _ => keepsTo_pure _)
        fun _ => keepsTo_pure _) _ w
      refine hturn.bind fun _ => keepsTo_get.bind fun w => ?_
      cases w.live.get? run with
      | some entry => exact keepsTo_pure _
      | none => exact keepsTo_fail _
    | contains run =>
      have hlook : (Program.turn >>= fun _ => Program.get >>= fun w =>
          pure (Registry.contains w run) : Program World BindingError Bool).KeepsTo World.Aside :=
        hturn.bind fun _ => keepsTo_get.bind fun _ => keepsTo_pure _
      exact follows_aside ((hlook.bind fun _ => keepsTo_pure _).bind fun _ => keepsTo_pure _) _ w
    | discard run =>
      exact ⟨.plain, .waits (.refl w), fun s => returns_discardNow run s _⟩
    | discardExpired maxAge =>
      have hdated : w.Aside { w with calendar := w.calendar + 1 } := ⟨⟨rfl, rfl, rfl⟩, rfl, .refl _⟩
      exact ⟨.plain, .waits hdated, fun s => returns_expireAt (w.calendar + 1) maxAge s _⟩
  | change run change =>
    exact (follows_act run change w).bind (fun _ _ _ _ hreturns => hreturns _)
      fun _ _ _ _ hreturns => hreturns _

/-! ## What stays as it is -/

/-- What work does to what is there, in any of its stretches: it spares the runs to which it is not
addressed, and it changes one context at most, of which the run and the vault stay the same. -/
structure Respects (work : Work) (w w' : World) : Prop where
  live : ∀ run, work.addresses run = false → w'.live.get? run = w.live.get? run
  contexts : ∀ (n : Nat) (c : Context), w.contexts[n]? = some c → work.addresses c.run = false →
    w'.contexts[n]? = some c
  single : ∃ number, ∀ (n : Nat) (c : Context), n ≠ number → w.contexts[n]? = some c →
    w'.contexts[n]? = some c
  kept : ∀ (n : Nat) (c : Context), w.contexts[n]? = some c →
    ∃ c' : Context, w'.contexts[n]? = some c' ∧ c'.run = c.run ∧ c'.vault = c.vault
  settings : w'.settings = w.settings
  draws : w.around.draws.Later w'.around.draws

/-- Work that touches no context respects them all. -/
theorem Respects.of_contexts (hlive : ∀ run, work.addresses run = false →
      w'.live.get? run = w.live.get? run)
    (hcontexts : ∀ (n : Nat) (c : Context), w.contexts[n]? = some c → w'.contexts[n]? = some c)
    (hsettings : w'.settings = w.settings) (hdraws : w.around.draws.Later w'.around.draws) :
    work.Respects w w' :=
  ⟨hlive, fun n c hc _ => hcontexts n c hc, ⟨0, fun n c _ hc => hcontexts n c hc⟩,
    fun n c hc => ⟨c, hcontexts n c hc, rfl, rfl⟩, hsettings, hdraws⟩

/-- Work that happens aside respects everything. -/
theorem Respects.aside (h : w.Aside w') (work : Work) : work.Respects w w' :=
  .of_contexts (fun _ _ => by rw [h.quiet.live]) (fun _ _ hc => h.quiet.contexts ▸ hc)
    h.quiet.settings h.draws

/-- The last stretch spares the runs to which the work is not addressed, if what was found belongs
to a run to which it is. -/
theorem Returns.respects {result : Except BindingError (Option Response)}
    (h : work.Returns q start w result)
    (hfound : ∀ number, q = .found number →
      ∃ c : Context, start.contexts[number]? = some c ∧ work.addresses c.run = true) :
    work.Respects start w := by
  -- A creation touches no context that was there; a change touches the one that was found; a
  -- discard touches none.
  cases h with
  | @created run organization declarations creation _ _ result returns =>
    cases returns with
    | @created c free own named fills contexts live settings calls draws =>
      refine .of_contexts (fun other hspared => ?_) (fun n c hc => ?_) settings (draws ▸ .refl _)
      · have hother : other ≠ run := fun hsame => of_decide_eq_false hspared hsame.symm
        rw [live, KeyMap.get?_insert, if_neg hother]
      · rw [contexts, List.getElem?_append_left (List.getElem?_eq_some_iff.mp hc).1]
        exact hc
    | refused aside => exact .aside aside _
  | @changed run change number _ _ _ contexts live settings draws =>
    obtain ⟨found, hthere, haddressed⟩ := hfound number rfl
    have hother : ∀ (n : Nat) (c : Context), n ≠ number → start.contexts[n]? = some c →
        w.contexts[n]? = some c := by
      intro n c hne hc
      rw [contexts, List.getElem?_set_ne hne.symm]
      exact hc
    have hself : w.contexts[number]? = some (found.change change) := by
      rw [contexts, World.getD_contexts hthere,
        List.getElem?_set_self (List.getElem?_eq_some_iff.mp hthere).1]
    refine ⟨fun _ _ => by rw [live], fun n c hc hspared => ?_, ⟨number, hother⟩, fun n c hc => ?_,
      settings, draws⟩
    · -- The context that is changed belongs to a run to which the work is addressed.
      refine hother n c (fun hsame => ?_) hc
      rw [hsame, hthere] at hc
      cases hc
      rw [haddressed] at hspared
      cases hspared
    · -- The number found is the changed context, and every other number is as before.
      by_cases hn : n = number
      · rw [hn, hthere] at hc
        cases hc
        exact ⟨_, hn ▸ hself, Context.run_change found change, Context.vault_change found change⟩
      · exact ⟨c, hother n c hn hc, rfl, rfl⟩
  | dropped contexts live spared settings draws =>
    exact .of_contexts spared (fun n c hc => contexts ▸ hc) settings draws

/-- Every stretch of a piece of work respects what is there, if what was found belongs to a run to
which the work is addressed. -/
theorem respects_of_follows {p : Paused World BindingError (Option Response)}
    (h : p.Follows work.Step work.Returns q start)
    (hfound : ∀ number, q = .found number →
      ∃ c : Context, start.contexts[number]? = some c ∧ work.addresses c.run = true) :
    work.Respects start p.state := by
  -- Before it returns a piece of work leaves everything alone.
  cases p with
  | ended w result => exact Returns.respects h hfound
  | waiting w wait resume =>
    obtain ⟨_, hstep, -⟩ := h
    exact .aside hstep.aside work

/-! ## What is added -/

/-- What a stretch of work adds: a context only as its creation returns it, filled with what is
remembered, and a live entry only for a context of the same run. -/
structure Adds (q : Pursuit) (start : World) (p : Paused World BindingError (Option Response)) :
    Prop where
  contexts : ∀ (n : Nat) (c : Context), p.state.contexts[n]? = some c →
    start.contexts[n]? = none → p = .ended p.state (.ok (some (.context n))) ∧
      ∃ creation, q = .creating creation ∧ creation.Fills c.vault
  live : ∀ run entry, p.state.live.get? run = some entry → start.live.get? run = some entry ∨
    ∃ c, p.state.contexts[entry.context]? = some c ∧ c.run = run

/-- A stretch that leaves no more contexts and no more entries adds nothing. -/
theorem Adds.of_le {p : Paused World BindingError (Option Response)}
    (hcontexts : p.state.contexts.length ≤ start.contexts.length)
    (hlive : ∀ run entry, p.state.live.get? run = some entry →
      start.live.get? run = some entry) : Adds q start p := by
  refine ⟨fun n c hc hnone => ?_, fun run entry hentry => .inl (hlive run entry hentry)⟩
  have hthere : n < p.state.contexts.length := (List.getElem?_eq_some_iff.mp hc).1
  exact absurd (List.getElem?_eq_none_iff.mp hnone) (by omega)

/-- A stretch that happens aside adds nothing. -/
theorem Adds.aside {p : Paused World BindingError (Option Response)}
    (h : start.Aside p.state) : Adds q start p :=
  .of_le (Nat.le_of_eq (congrArg List.length h.quiet.contexts))
    fun _ _ hentry => h.quiet.live ▸ hentry

/-- The last stretch of a piece of work adds only what it should. -/
theorem Returns.adds {result : Except BindingError (Option Response)}
    (h : work.Returns q start w result) : Adds q start (.ended w result) := by
  -- Only a creation that succeeds adds anything.
  cases h with
  | @created run organization declarations creation _ _ result returns =>
    cases returns with
    | @created c free own named fills contexts live settings calls draws =>
      have hnew : w.contexts[start.contexts.length]? = some c := by
        rw [contexts, List.getElem?_concat_length]
      have hlength : w.contexts.length = start.contexts.length + 1 := by
        rw [contexts, List.length_append, List.length_singleton]
      refine ⟨fun n c' hc' hnone => ?_, fun other entry hentry => ?_⟩
      · -- The only number that was not in use is that of the context itself.
        have hused : n < w.contexts.length := (List.getElem?_eq_some_iff.mp hc').1
        have hunused : start.contexts.length ≤ n := List.getElem?_eq_none_iff.mp hnone
        have hn : n = start.contexts.length := by omega
        subst hn
        have hsame : c = c' := Option.some.inj (hnew.symm.trans hc')
        exact ⟨rfl, creation, rfl, hsame ▸ fills⟩
      · change w.live.get? other = some entry at hentry
        rw [live, KeyMap.get?_insert] at hentry
        -- The entry of the run is new, and all others were there.
        by_cases hother : other = run
        · rw [if_pos hother] at hentry
          cases hentry
          exact .inr ⟨c, hnew, named.trans hother.symm⟩
        · rw [if_neg hother] at hentry
          exact .inl hentry
    | refused aside => exact .aside aside
  -- A change replaces a context by another one under its number.
  | changed contexts live settings draws =>
    refine .of_le (Nat.le_of_eq ?_) fun _ _ hentry => live ▸ hentry
    show w.contexts.length = start.contexts.length
    rw [contexts, List.length_set]
  | dropped contexts live spared settings draws =>
    exact .of_le (Nat.le_of_eq (congrArg List.length contexts)) live

/-- Every stretch of a piece of work adds only what it should. -/
theorem adds_of_follows {p : Paused World BindingError (Option Response)}
    (h : p.Follows work.Step work.Returns q start) : Adds q start p := by
  cases p with
  | ended w result => exact Returns.adds h
  | waiting w wait resume =>
    obtain ⟨_, hstep, -⟩ := h
    exact .aside hstep.aside

end Work

end Registry

end RunParams
