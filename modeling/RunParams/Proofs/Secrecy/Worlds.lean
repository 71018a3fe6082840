import Mathlib.Data.List.Forall2
import RunParams.Proofs.Secrecy.Binding
import RunParams.Registry

/-!
# Worlds with other secrets

Two worlds are alike if their stores are, if their contexts are alike one by one, and if everything
else is the same: the log, the live contexts, the clock, the calendar, locks, flags and permits
(`World.Alike`). What is done to alike worlds through the registry, or to a context by its number,
has the same result in both and leaves them alike.
-/

namespace RunParams

/-- Two calls are of the same step of the same run, with alike contexts. -/
structure Call.Alike (c c' : Call) : Prop where
  run : c.run = c'.run
  label : c.label = c'.label
  context : Context.Alike c.context c'.context

/-- Worlds that differ at most in secrets. -/
structure World.Alike (w w' : World) : Prop where
  settings : w.settings = w'.settings
  around : Surroundings.Alike w.around w'.around
  calendar : w.calendar = w'.calendar
  contexts : List.Forall₂ Context.Alike w.contexts w'.contexts
  live : w.live = w'.live
  locks : w.locks = w'.locks
  flags : w.flags = w'.flags
  permits : w.permits = w'.permits
  calls : List.Forall₂ Call.Alike w.calls w'.calls

namespace Context

variable {α : Type}

/-- Work on the store of alike contexts. -/
theorem onStore_alike (action : Action Store α) :
    Action.Alike Context.Alike Eq (onStore action) (onStore action) :=
  .within (fun _ _ h => h.store) (fun _ _ _ h => { h with store := rfl }) action

/-- The parameters of a step are registered alike. -/
theorem register_alike (parameters : List Parameter) (organization : String) :
    Action.Alike Context.Alike Eq (register parameters organization)
      (register parameters organization) := by
  refine Action.Alike.get.bind fun c c' h => ?_
  rw [h.run, h.organization]
  split
  · exact (Action.Alike.report _).bind fun _ _ _ => onStore_alike _
  · exact onStore_alike _

end Context

namespace World

variable {ε α : Type} {w w' : World}

/-- Processes that start with alike stores, the same settings and the same ids are alike. -/
theorem start_alike (settings : ResolverSettings) {b b' : Backend} (h : Backend.Alike b b')
    (draws : Draws) : Alike (start settings b draws) (start settings b' draws) :=
  ⟨rfl, ⟨h, rfl, rfl, rfl, rfl⟩, rfl, .nil, rfl, rfl, rfl, rfl, .nil⟩

/-- Alike worlds have alike contexts under each number. -/
theorem Alike.context (h : Alike w w') (number : Nat) :
    Context.Alike (w.contexts.getD number default) (w'.contexts.getD number default) := by
  have hcontexts := h.contexts
  generalize w.contexts = cs at hcontexts ⊢
  generalize w'.contexts = cs' at hcontexts ⊢
  induction hcontexts generalizing number with
  | nil =>
    -- A number that no context has stands for the same context in both.
    exact .refl _
  | cons hc _ ih =>
    cases number with
    | zero => exact hc
    | succ number => exact ih number

/-- Contexts stay alike one by one when two alike ones take the place of one. -/
theorem contexts_set {cs cs' : List Context} (h : List.Forall₂ Context.Alike cs cs') (number : Nat)
    {c c' : Context} (hc : Context.Alike c c') :
    List.Forall₂ Context.Alike (cs.set number c) (cs'.set number c') := by
  induction h generalizing number with
  | nil => exact .nil
  | cons hd htail ih =>
    cases number with
    | zero => exact .cons hc htail
    | succ number => exact .cons hd (ih number)

/-- Alike worlds stay alike when the same events are logged. -/
theorem Alike.logged (h : Alike w w') (events : List Event) :
    Alike (w.logged events) (w'.logged events) :=
  { h with around := h.around.logged events }

/-- Alike worlds stay alike when the same contexts become live. -/
theorem Alike.withLive (h : Alike w w') (live : KeyMap Entry) :
    Alike { w with live } { w' with live } :=
  { h with live := rfl }

/-- Alike worlds stay alike when alike contexts take the place of theirs. -/
theorem Alike.withContexts (h : Alike w w') {cs cs' : List Context}
    (hcs : List.Forall₂ Context.Alike cs cs') :
    Alike { w with contexts := cs } { w' with contexts := cs' } :=
  { h with contexts := hcs }

/-- Alike worlds stay alike when alike contexts are added, and these get the same number. -/
theorem Alike.addContext (h : Alike w w') {c c' : Context} (hc : Context.Alike c c') :
    (w.addContext c).1 = (w'.addContext c').1 ∧ Alike (w.addContext c).2 (w'.addContext c').2 :=
  ⟨h.contexts.length_eq,
    { h with contexts := List.rel_append h.contexts (.cons hc .nil) }⟩

theorem report_alike (event : Event) :
    Program.Alike Alike Eq (report event : Program World ε Unit) (report event) :=
  .modify fun _ _ h => h.logged _

theorem now_alike : Program.Alike Alike Eq (now : Program World ε Nat) now := by
  intro w w' h
  simp only [now, h.calendar]
  exact .ended { h with calendar := rfl } (.ok rfl)

/-- A context is worked on alike. -/
theorem act_alike {V : α → α → Prop} (number : Nat) {action action' : Action Context α}
    (ha : Action.Alike Context.Alike V action action') :
    Program.Alike Alike V (act number action) (act number action') := by
  intro w w' h
  obtain ⟨hresult, hevents, hstate⟩ := ha _ _ (h.context number)
  simp only [act, hevents]
  exact .ended ((h.withContexts (contexts_set h.contexts number hstate)).logged _) hresult

/-- Declarations are bound alike in contexts that nobody else has. -/
theorem bind_alike {c c' : Context} (hc : Context.Alike c c') (declarations : Declarations) :
    Program.Alike Alike Context.Alike (bind c declarations) (bind c' declarations) := by
  -- The context is not among those of the world while it is bound, so it is carried beside it.
  let beside (c : Context) : Program World BindingError (Context × Unit) :=
    (Desk.bindAll declarations).beside (fun context w => ⟨context, w.around⟩) Desk.context
      (fun d w => { w with around := d.around }) c
  have hbeside : Program.Alike World.Alike (fun a b => Context.Alike a.1 b.1 ∧ a.2 = b.2)
      (beside c) (beside c') :=
    (Desk.bindAll_alike declarations).beside
      (fun _ _ _ _ hcontext hw => ⟨hcontext, hw.around⟩) (fun _ _ hd => hd.context)
      (fun _ _ _ _ hd hw => { hw with around := hd.around }) hc
  exact hbeside.bind fun a a' ha => .pure ha.1

/-- Declarations are bound alike in the contexts with a number. -/
theorem bindIn_alike (number : Nat) (declarations : Declarations) :
    Program.Alike Alike Eq (bindIn number declarations) (bindIn number declarations) :=
  (Desk.bindAll_alike declarations).within (fun _ _ hw => ⟨hw.context number, hw.around⟩)
    fun _ _ _ _ hd hw =>
      { hw with contexts := contexts_set hw.contexts number hd.context, around := hd.around }

/-- A context in which nothing is bound is opened alike. -/
theorem openContext_alike (run : String) (organization : Organization) :
    Program.Alike Alike Eq (openContext run organization : Program World ε Nat)
      (openContext run organization) := by
  refine now_alike.bind fun createdAt _ hcreated => ?_
  subst hcreated
  intro w w' h
  have hfresh : Context.Alike (.fresh w.settings run organization createdAt)
      (.fresh w'.settings run organization createdAt) := by rw [h.settings]; exact .refl _
  obtain ⟨hnumber, hworld⟩ := h.addContext hfresh
  exact .ended hworld (.ok hnumber)

theorem lock_alike (number holder : Nat) :
    Program.Alike Alike Eq (lock number holder : Program World ε Unit) (lock number holder) :=
  Program.Alike.waitFor.andThen (.modify fun _ _ h => { h with locks := by rw [h.locks] })

/-- Alike worlds stay alike when nothing but the clock and the own waits pass. -/
theorem Alike.pass (wait : Wait) {w w' : World} (h : Alike w w') :
    Alike (World.pass wait w) (World.pass wait w') := by
  cases wait with
  | clock due =>
    refine { h with around := { h.around with clock := ?_ } }
    show max w.around.clock due = max w'.around.clock due
    rw [h.around.clock]
  | turn => exact h
  | context number => exact h
  | permit gate => exact h

end World

namespace Registry

variable {ε α : Type} {w w' : World}

/-- A context is made live under the same number. -/
theorem insert_alike (run : String) {c c' : Context} (hc : Context.Alike c c') :
    Program.Alike World.Alike Eq (insert run c) (insert run c') := by
  intro w w' h
  obtain ⟨hnumber, hworld⟩ := h.addContext hc
  have hlive : (w.addContext c).2.live = (w'.addContext c').2.live := h.live
  by_cases hexists : w'.live.contains run = true
  · simp only [insert, contains, h.live, hexists, if_true]
    exact .ended h .error
  · simp only [insert, contains, h.live, hexists, hnumber, hc.createdAt, hlive]
    exact .ended ((hworld.withLive _).logged _) (.ok rfl)

/-- A run is given a live context alike. -/
theorem create_alike (run : String) (organization : Organization) (declarations : Declarations) :
    Program.Alike World.Alike Eq (create run organization declarations)
      (create run organization declarations) := by
  refine Program.Alike.waitFor.andThen (Program.Alike.get.bind fun w w' h => ?_)
  simp only [contains, h.live]
  by_cases hexists : w'.live.contains run = true
  · simp only [hexists, if_true]
    exact .fail
  · simp only [hexists]
    refine World.now_alike.bind fun createdAt _ hcreated => ?_
    subst hcreated
    -- The run is looked for again after the binding; `insert_alike` takes care of that.
    refine Program.Alike.get.bind fun w w' h => ?_
    rw [h.settings]
    refine (World.bind_alike (.refl _) declarations).bind fun c c' hc => ?_
    exact Program.Alike.waitFor.andThen (insert_alike run hc)

/-- The live context of a run is found under the same number. -/
theorem get_alike (run : String) : Program.Alike World.Alike Eq (get run) (get run) := by
  refine Program.Alike.waitFor.andThen (Program.Alike.get.bind fun w w' h => ?_)
  rw [h.live]
  split
  · exact .pure rfl
  · exact .fail

/-- Discarding finds a context in both worlds or in neither. -/
theorem discardNow_alike (run : String) (h : World.Alike w w') :
    (discardNow run w).1 = (discardNow run w').1 ∧
      World.Alike (discardNow run w).2 (discardNow run w').2 := by
  by_cases hexists : w'.live.contains run = true
  · simp only [discardNow, contains, h.live, hexists, if_true]
    exact ⟨trivial, (h.withLive _).logged _⟩
  · simp only [discardNow, contains, h.live, hexists]
    exact ⟨rfl, h⟩

theorem discard_alike (run : String) :
    Program.Alike World.Alike Eq (discard run : Program World ε Bool) (discard run) := by
  refine Program.Alike.waitFor.andThen fun w w' h => ?_
  obtain ⟨hfound, hworld⟩ := discardNow_alike run h
  exact .ended hworld (.ok hfound)

/-- In alike worlds the same contexts expire. -/
theorem discardExpired_alike (maxAge : Duration) :
    Program.Alike World.Alike Eq (discardExpired maxAge : Program World ε (List String))
      (discardExpired maxAge) := by
  refine World.now_alike.bind fun now _ hnow => ?_
  subst hnow
  refine Program.Alike.waitFor.andThen fun w w' h => ?_
  simp only [expireAt, h.live]
  exact .ended ((h.withLive _).logged _) (.ok rfl)

/-- The live context of a run is worked on alike. -/
theorem act_alike {V : α → α → Prop} (run : String) {action action' : Action Context α}
    (ha : Action.Alike Context.Alike V action action') :
    Program.Alike World.Alike V (act run action) (act run action') := by
  refine (get_alike run).bind fun number _ hnumber => ?_
  subst hnumber
  exact Program.Alike.waitFor.andThen (World.act_alike number ha)

end Registry

end RunParams
