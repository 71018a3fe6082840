import RunParams.Proofs.Replay.Works

/-!
# What the creation of a context takes

A creation that nobody stands in the way of reads the calendar once and binds the declarations of
the run in a fresh context (`Desk.fresh`). So what it takes is this reading and what the binding
takes, and what it comes to is told by the end of the binding (`Registry.of_create_ends`).
-/

namespace RunParams

open Program

variable {run : String} {flag : Nat} {w t : World} {took : Takings} {α : Type}

namespace Desk

/-- A fresh context of a run, with the next reading of the calendar as its date. -/
def fresh (w : World) (run : String) (organization : Organization) : Desk :=
  ⟨.fresh w.settings run organization (w.calendar + 1), w.around⟩

/-- The context stays that of its run, with the date of its creation. -/
structure SameOrigin (d d' : Desk) : Prop where
  run : d'.context.run = d.context.run
  createdAt : d'.context.createdAt = d.context.createdAt

instance : Std.Refl SameOrigin := ⟨fun _ => ⟨rfl, rfl⟩⟩

instance : Trans SameOrigin SameOrigin SameOrigin :=
  ⟨fun h h' => ⟨h'.run.trans h.run, h'.createdAt.trans h.createdAt⟩⟩

/-- Whatever is bound in a context, it stays that of its run, with the date of its creation. -/
theorem sameOrigin_bindAll (declarations : Declarations) :
    (bindAll declarations).KeepsTo SameOrigin := by
  have hvault : ∀ {α : Type} (p : Program Bench BindingError α),
      (onVault p).KeepsTo SameOrigin := by
    intro α p
    have hp : p.KeepsTo fun _ _ : Bench => True := keepsTo_of_forall (fun _ _ => trivial) p
    exact hp.within fun _ _ _ => ⟨rfl, rfl⟩
  have hstore : ∀ {α : Type} (action : Action Store α), (onStore action).KeepsTo SameOrigin :=
    fun _ _ => ⟨rfl, rfl⟩
  have hparts : PartsKeepTo SameOrigin :=
    { report := fun _ _ => ⟨rfl, rfl⟩
      credential := fun _ => keepsTo_get.bind fun _ => hvault _
      secret := fun _ => keepsTo_get.bind fun _ => hvault _
      designate := fun _ _ => hstore _
      define := fun _ _ _ => hstore _
      output := fun _ => hstore _
      context := fun _ => hstore _ }
  exact hparts.bindAll declarations

end Desk

namespace Registry

/-- Binding declarations beside the world only takes more and more from it. -/
theorem later_beside (c : Context) (declarations : Declarations) :
    ((Desk.bindAll declarations).beside (fun context (w : World) => (⟨context, w.around⟩ : Desk))
      Desk.context (fun d w => { w with around := d.around }) c).KeepsTo World.meter.later := by
  have hbind : Desk.Repeats 0 (Desk.bindAll declarations) := Desk.repeats_bindAll declarations
  exact hbind.keeps.beside (fun c w d h => ⟨h, Nat.le_refl _⟩) c

/-- Binding declarations in a context only takes more and more from the world. -/
theorem later_bind (c : Context) (declarations : Declarations) :
    (World.bind c declarations).KeepsTo World.meter.later :=
  (later_beside c declarations).bind fun _ => keepsTo_pure _

/-- Making a context live takes nothing. -/
theorem later_insert (run : String) (c : Context) : (insert run c).KeepsTo World.meter.later := by
  intro w
  unfold insert
  cases contains w run with
  | true => exact .refl w
  | false => exact ⟨⟨.refl _, rfl, List.prefix_refl _⟩, Nat.le_refl _⟩

/-- The creation of a context only takes more and more from the world. -/
theorem later_create (run : String) (organization : Organization) (declarations : Declarations) :
    (create run organization declarations).KeepsTo World.meter.later := by
  have hturn : (Program.turn : Program World BindingError Unit).KeepsTo World.meter.later :=
    keepsTo_waitFor .turn
  have hnow : (World.now : Program World BindingError Nat).KeepsTo World.meter.later :=
    fun w => ⟨.refl _, Nat.le_succ _⟩
  refine hturn.bind fun _ => keepsTo_get.bind fun w => ?_
  cases contains w run with
  | true => exact keepsTo_fail _
  | false =>
    refine hnow.bind fun createdAt => keepsTo_get.bind fun w => ?_
    exact (later_bind _ declarations).bind fun c => hturn.bind fun _ => later_insert run c

/-- A context is created in a regular way. -/
theorem regular_create (run : String) (organization : Organization) (declarations : Declarations) :
    (create run organization declarations).KeepsTo World.Regular := by
  -- It goes onward, so what is left to see is what becomes of the contexts.
  let WhenOnward (w w' : World) : Prop := w.Later w' → w.Regular w'
  have haside : ∀ {w w' : World}, w.Aside w' → WhenOnward w w' := fun h hlater =>
    .of_eq ⟨h.quiet.settings, hlater⟩ h.quiet.contexts fun _ _ hentry => h.quiet.live ▸ hentry
  suffices hshape : (create run organization declarations).KeepsTo WhenOnward from
    (hshape.both (later_create run organization declarations)).mono fun _ _ h => h.1 h.2
  refine fun w => (follows_create run organization declarations (.refl w)).keepsTo
    (fun _ _ _ _ _ hstep => haside hstep.aside) fun q a s r hreturns hlater => ?_
  cases hreturns with
  | refused aside => exact haside aside hlater
  | @created c free own named fills contexts live settings calls draws =>
    -- The contexts there were stay where they are; the new one stands behind them.
    have hthere : ∀ (n : Nat) c', a.contexts[n]? = some c' → s.contexts[n]? = some c' := by
      intro n c' hc'
      rw [contexts, List.getElem?_append_left (List.getElem?_eq_some_iff.mp hc').1]
      exact hc'
    refine ⟨⟨settings, hlater⟩, fun n c' hc' => ⟨c', hthere n c' hc', rfl⟩,
      fun hlabelled other entry h => ?_⟩
    rw [live, KeyMap.get?_insert] at h
    -- The new entry is labelled by the id it was created under.
    by_cases hother : other = run
    · rw [if_pos hother] at h
      cases h
      refine ⟨c, ?_, named.trans hother.symm⟩
      rw [contexts, List.getElem?_concat_length]
    · rw [if_neg hother] at h
      obtain ⟨c', hc', hrun⟩ := hlabelled other entry h
      exact ⟨c', hthere _ c' hc', hrun⟩

/-- Declarations are bound beside the world, which takes what the binding takes. When it succeeds,
the program goes on with the context, in a world of which the others have kept what they keep. -/
theorem of_bind_ends {rely : World → World → Prop} {binding : Desk → Desk → Prop}
    {declarations : Declarations} {c : Context} {next : Context → Program World BindingError α}
    (frame : World → Prop) (hnext : ∀ c, (next c).KeepsTo World.meter.later)
    (hbinding : ∀ (d : Desk) (w w' : World), rely { w with around := d.around } w' →
      binding d ⟨d.context, w'.around⟩)
    (hframe : ∀ (d : Desk) (w w' : World), frame w → rely { w with around := d.around } w' →
      frame w')
    (hw : frame w) {r : Except BindingError α}
    (h : ((World.bind c declarations >>= next) w).Ends World.meter rely w took t r) :
    ∃ (bound after : Takings) (d : Desk) (result : Except BindingError Unit),
      took = bound ++ after ∧
      (Desk.bindAll declarations ⟨c, w.around⟩).Ends (Surroundings.meter.on Desk.around) binding
        ⟨c, w.around⟩ bound d result ∧
      ((∃ e, result = .error e ∧ r = .error e) ∨
        ∃ s, frame s ∧ result = .ok () ∧
          (next d.context { s with around := d.around }).CanEnd rely t r) := by
  let beside : Program World BindingError (Context × Unit) :=
    (Desk.bindAll declarations).beside (fun context w => ⟨context, w.around⟩) Desk.context
      (fun d w => { w with around := d.around }) c
  have hbeside : ∀ {took : Takings} {s : World} {r : Except BindingError (Context × Unit)},
      (beside w).Ends World.meter rely w took s r → ∃ (d : Desk) (s' : World) (result : _),
        (Desk.bindAll declarations ⟨c, w.around⟩).Ends (Surroundings.meter.on Desk.around) binding
          ⟨c, w.around⟩ took d result ∧ frame s' ∧ s = { s' with around := d.around } ∧
          r = result.map fun u => (d.context, u) := fun h =>
    Paused.Ends.of_beside (Surroundings.meter.on Desk.around) binding frame
      (fun c s d => World.taken_around s d.around)
      (fun d s s' _ hkept => hbinding d s s' hkept) hframe hw h
  have hkeeps : beside.KeepsTo World.meter.later := later_beside c declarations
  rcases Paused.Ends.of_bind (later_bind c declarations w) (fun c => hnext c) h with
    ⟨s, c', first, second, rfl, hfirst, hsecond⟩ | ⟨e, rfl, hfirst⟩
  · -- The binding itself went well, so what comes after it is the insertion.
    rcases Paused.Ends.of_bind (hkeeps w) (fun _ => keepsTo_pure _) hfirst with
      ⟨s', ⟨c'', u⟩, bound, after, rfl, hbound, hreturned⟩ | ⟨e, hr, -⟩
    · obtain ⟨-, rfl, hc⟩ := Paused.Ends.of_ended hreturned
      cases hc
      obtain ⟨d, s'', result, hend, hs, rfl, hresult⟩ := hbeside hbound
      cases result with
      | error e => cases hresult
      | ok _ =>
        cases hresult
        exact ⟨bound, after ++ second, d, .ok (), Takings.append_assoc _ _ _, hend,
          .inr ⟨s'', hs, rfl, hsecond.canEnd⟩⟩
    · cases hr
  · -- The binding has failed, and then nothing is inserted.
    rcases Paused.Ends.of_bind (hkeeps w) (fun _ => keepsTo_pure _) hfirst with
      ⟨s', _, bound, after, -, -, hreturned⟩ | ⟨e', hr, hbound⟩
    · cases hreturned.of_ended.2.2
    · cases hr
      obtain ⟨d, s'', result, hend, -, rfl, hresult⟩ := hbeside hbound
      cases result with
      | ok _ => cases hresult
      | error e' =>
        cases hresult
        exact ⟨took, .none, d, .error e, (Takings.append_none took).symm, hend, .inl ⟨e, rfl, rfl⟩⟩

/-- A creation in whose way nobody stands reads the calendar and binds the declarations in a fresh
context, and what it takes is the reading and what the binding takes. When the binding succeeds the
context is there. -/
theorem of_create_ends {rely : World → World → Prop} {binding : Desk → Desk → Prop}
    {organization : Organization} {declarations : Declarations}
    (hrely : ∀ w w', rely w w' → w.Spared run flag w')
    (hbinding : ∀ (d : Desk) (w w' : World), rely { w with around := d.around } w' →
      binding d ⟨d.context, w'.around⟩)
    (hsame : ∀ d d', binding d d' → d'.context = d.context)
    (habsent : w.live.get? run = none) (hlow : w.flagged flag = false)
    {r : Except BindingError Nat}
    (h : (create run organization declarations w).Ends World.meter rely w took t r) :
    ∃ (found : World) (bound after : Takings) (d : Desk) (result : Except BindingError Unit),
      rely w found ∧ took = ⟨[], [], [found.calendar + 1]⟩ ++ (bound ++ after) ∧
      (Desk.bindAll declarations (.fresh found run organization)).Ends
        (Surroundings.meter.on Desk.around) binding (.fresh found run organization) bound d result ∧
      Desk.SameOrigin (.fresh found run organization) d ∧
      (∀ e, result = .error e → r = .error e) ∧
      (result = .ok () → ∃ number, r = .ok number ∧ t.Has number d.context flag) := by
  -- No context under this id, and the flag is low: this survives every wait of the creation.
  let Free (w : World) : Prop := w.live.get? run = none ∧ w.flagged flag = false
  have hfree : ∀ w w', Free w → rely w w' → Free w' := fun w w' h hkept =>
    ⟨(hrely w w' hkept).absent h.1, (hrely w w' hkept).lowered h.2⟩
  cases h with
  | @waiting _ _ found _ _ _ later _ hfound rest =>
    have hnow : Free found := hfree w found ⟨habsent, hlow⟩ hfound
    let dated : World := { found with calendar := found.calendar + 1 }
    let fresh : Context := .fresh found.settings run organization (found.calendar + 1)
    let insertion (c : Context) : Program World BindingError Nat :=
      Program.turn >>= fun _ => insert run c
    change ((if contains found run then _ else _ : Program World BindingError Nat) found).Ends
      _ _ _ _ _ _ at rest
    rw [contains_eq_false_iff.mpr hnow.1] at rest
    change ((World.bind fresh declarations dated).bind insertion).Ends _ _ _ _ _ _ at rest
    have hinsertion : ∀ c, (insertion c).KeepsTo World.meter.later := fun c =>
      (keepsTo_waitFor .turn).bind fun _ => later_insert run c
    have hwhole : (World.bind fresh declarations >>= insertion).KeepsTo World.meter.later :=
      (later_bind fresh declarations).bind hinsertion
    -- The reading of the calendar is in the same stretch as the first look.
    have hdated : World.meter.later found dated := ⟨.refl _, Nat.le_succ _⟩
    obtain ⟨rest', rfl, hrest⟩ := Paused.Ends.since hdated (hwhole dated) rest
    have hframe : ∀ (d : Desk) (w w' : World), Free w → rely { w with around := d.around } w' →
        Free w' := fun d w w' hw hkept => hfree { w with around := d.around } w' hw hkept
    obtain ⟨bound, after, d, result, rfl, hbound, hcreated⟩ :=
      of_bind_ends (w := dated) Free hinsertion hbinding hframe hnow hrest
    have htook : World.meter.taken found dated = ⟨[], [], [found.calendar + 1]⟩ :=
      World.taken_calendar found
    have horigin : Desk.SameOrigin (.fresh found run organization) d :=
      (Desk.sameOrigin_bindAll declarations _).of_canEnd
        (fun d d' h => ⟨congrArg Context.run (hsame d d' h),
          congrArg Context.createdAt (hsame d d' h)⟩) hbound.canEnd
    rw [Meter.taken_self, Takings.none_append, htook]
    refine ⟨found, bound, after, d, result, hfound, rfl, hbound, horigin, fun e he => ?_,
      fun hok => ?_⟩
    · rcases hcreated with ⟨e', rfl, rfl⟩ | ⟨s, -, rfl, -⟩
      · cases he
        rfl
      · cases he
    · rcases hcreated with ⟨e', rfl, -⟩ | ⟨s, hs, -, hinserted⟩
      · cases hok
      · -- The insertion looks once more, and the id is still free.
        rcases Paused.CanEnd.of_bind hinserted with ⟨u, _, hwait, hinsert⟩ | ⟨e, -, hwait⟩
        · have hu : Free u := hframe d s u hs hwait.of_waitFor.1
          unfold insert at hinsert
          rw [contains_eq_false_iff.mpr hu.1] at hinsert
          obtain ⟨rfl, rfl⟩ := Paused.CanEnd.of_ended hinsert
          exact ⟨u.contexts.length, rfl, List.getElem?_concat_length, hu.2⟩
        · cases hwait.of_waitFor.2

end Registry

end RunParams
