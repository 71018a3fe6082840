import RunParams.Proofs.Run.Phases

/-!
# Orderly work on the live contexts

Contexts have numbers of their own: a context that becomes live was not there before, and no context
is live under two ids (`World.Filed`). Whoever works on the world in an orderly way keeps it so and
makes no context live that was there already (`World.Orderly`).

Everything that the program does is orderly: the stretches of a run, the requests to the registry
and the sweeps.
-/

namespace RunParams

/-- The live contexts are among all contexts, each of them live under one id only. -/
structure World.Filed (w : World) : Prop where
  used : ∀ run entry, w.live.get? run = some entry → entry.context < w.contexts.length
  distinct : ∀ run run' entry entry', w.live.get? run = some entry →
    w.live.get? run' = some entry' → entry.context = entry'.context → run = run'

/-- What is made live has not been there before. -/
structure World.Orderly (w w' : World) : Prop where
  filed : w.Filed → w'.Filed
  contexts : w.contexts.length ≤ w'.contexts.length
  live : ∀ run entry, w'.live.get? run = some entry →
    w.live.get? run = some entry ∨ w.contexts.length ≤ entry.context

/-- Work that is orderly in each of its stretches. -/
def Program.Orderly {ε α : Type} (p : Program World ε α) : Prop := p.KeepsTo World.Orderly

variable {insists : Prop} {run : String} {flag number : Nat} {q q' : Phase} {wait : Wait}
  {w w' w'' : World} {own : Option Nat} {ε α : Type}

namespace World

/-- It is orderly to make nothing live. -/
theorem Orderly.of_sub (hcontexts : w.contexts.length ≤ w'.contexts.length)
    (hlive : ∀ run entry, w'.live.get? run = some entry → w.live.get? run = some entry) :
    w.Orderly w' := by
  refine ⟨fun hfiled => ⟨fun run entry h => ?_, fun run run' entry entry' h h' => ?_⟩, hcontexts,
    fun run entry h => .inl (hlive run entry h)⟩
  · exact Nat.lt_of_lt_of_le (hfiled.used run entry (hlive run entry h)) hcontexts
  · exact hfiled.distinct run run' entry entry' (hlive run entry h) (hlive run' entry' h')

/-- It is orderly to leave the live contexts alone. -/
theorem Orderly.of_eq (hcontexts : w.contexts.length ≤ w'.contexts.length)
    (hlive : w'.live = w.live) : w.Orderly w' :=
  .of_sub hcontexts fun run entry hentry => by rwa [hlive] at hentry

/-- It is orderly to discard the context of a run. -/
theorem Orderly.of_erase (hcontexts : w.contexts.length ≤ w'.contexts.length)
    (hlive : w'.live = w.live.erase run) : w.Orderly w' := by
  refine .of_sub hcontexts fun other entry hentry => ?_
  rw [hlive, KeyMap.get?_erase] at hentry
  by_cases hother : other = run
  · rw [if_pos hother] at hentry
    cases hentry
  · rwa [if_neg hother] at hentry

/-- Nothing happens in no time. -/
theorem Orderly.refl (w : World) : w.Orderly w := .of_eq (Nat.le_refl _) rfl

/-- One orderly piece of work after another is orderly. -/
theorem Orderly.trans (h : w.Orderly w') (h' : w'.Orderly w'') : w.Orderly w'' := by
  refine ⟨fun hfiled => h'.filed (h.filed hfiled), Nat.le_trans h.contexts h'.contexts,
    fun run entry hentry => ?_⟩
  rcases h'.live run entry hentry with hbefore | hnew
  · exact h.live run entry hbefore
  · exact .inr (Nat.le_trans h.contexts hnew)

instance : Std.Refl Orderly := ⟨Orderly.refl⟩

instance : Trans Orderly Orderly Orderly := ⟨Orderly.trans⟩

/-- It is orderly that a run gets a context. -/
theorem Gains.orderly (h : w.Gains run number w')
    (hcontexts : w.contexts.length ≤ w'.contexts.length) : w.Orderly w' := by
  obtain ⟨createdAt, hlive⟩ := h.live
  -- After the gain an entry is the new one or one of before.
  have hentry : ∀ other entry, w'.live.get? other = some entry →
      other = run ∧ entry.context = number ∨ other ≠ run ∧ w.live.get? other = some entry := by
    intro other entry hentry
    rw [hlive, KeyMap.get?_insert] at hentry
    by_cases hother : other = run
    · rw [if_pos hother] at hentry
      cases hentry
      exact .inl ⟨hother, rfl⟩
    · rw [if_neg hother] at hentry
      exact .inr ⟨hother, hentry⟩
  -- Numbers in use are used, no two entries share one, and an entry that is not new was there
  -- before.
  refine ⟨fun hfiled => ⟨fun other entry hother => ?_,
    fun other other' entry entry' hother hother' => ?_⟩, hcontexts, fun other entry hother => ?_⟩
  · rcases hentry other entry hother with ⟨-, hnumber⟩ | ⟨-, hbefore⟩
    · rw [hnumber]
      exact h.used
    · exact Nat.lt_of_lt_of_le (hfiled.used other entry hbefore) hcontexts
  · -- Of two entries one may be new. Its number is then one that the other cannot have.
    have hunused := h.unused
    intro hsame
    rcases hentry other entry hother with ⟨hrun, hnumber⟩ | ⟨-, hbefore⟩ <;>
      rcases hentry other' entry' hother' with ⟨hrun', hnumber'⟩ | ⟨-, hbefore'⟩
    · rw [hrun, hrun']
    · have hused := hfiled.used other' entry' hbefore'
      omega
    · have hused := hfiled.used other entry hbefore
      omega
    · exact hfiled.distinct other other' entry entry' hbefore hbefore' hsame
  · -- The new entry has an unused number, as an entry that was not there before is to have.
    rcases hentry other entry hother with ⟨-, hnumber⟩ | ⟨-, hbefore⟩
    · exact .inr (hnumber ▸ h.unused)
    · exact .inl hbefore

/-- It is orderly to discard the context of a run at once. -/
theorem orderly_discardNow (run : String) (w : World) : w.Orderly (Registry.discardNow run w).2 :=
  have hcontexts := (Registry.discardNow_same run w).1
  .of_erase (Nat.le_of_eq (congrArg List.length hcontexts).symm) (Registry.live_discardNow run w)

/-- It is orderly to discard the contexts that are too old. -/
theorem orderly_expireAt (now : Nat) (maxAge : Duration) (w : World) :
    w.Orderly (Registry.expireAt now maxAge w).2 := by
  refine .of_sub (Nat.le_refl _) fun run entry hentry => ?_
  change (w.live.filter _).get? run = some entry at hentry
  rw [KeyMap.get?_filter] at hentry
  exact (Option.filter_eq_some_iff.mp hentry).1

end World

/-! ## Runs -/

/-- What a run does in a stretch is orderly. -/
theorem Stretch.orderly (h : Stretch insists run flag q w w' wait q') : w.Orderly w' := by
  rcases h.progress.live with ⟨-, hlive⟩ | ⟨-, number, -, hgains⟩
  · exact .of_eq h.progress.contexts hlive
  · exact hgains.orderly h.progress.contexts

/-- What a run does in its last stretch is orderly. -/
theorem Leaves.orderly (h : Leaves insists run flag q w w') : w.Orderly w' := by
  rcases h.live with ⟨-, hlive⟩ | ⟨-, hlive⟩
  · exact .of_eq h.contexts hlive
  · exact .of_erase h.contexts hlive

/-- A run on its own, outside a scheduler. -/
def RunInput.alone (executor : Executor) (input : RunInput) (flag : Nat) :
    Program World BindingError Unit := do
  let _ ← (input.perform executor flag).attempt

/-- A run on its own goes through the phases of a run. -/
theorem RunInput.follows_alone (executor : Executor) (input : RunInput) (flag : Nat) (w : World) :
    (input.alone executor flag w).Follows (Stretch executor.KeepsStopping input.run flag)
      (fun q a s _ => Leaves executor.KeepsStopping input.run flag q a s) .opening w := by
  refine ((input.follows_perform executor flag w).attempt).bind ?_ ?_
  · rintro q a s r ⟨_, -, hleaves⟩
    exact hleaves
  · rintro q a s e ⟨_, hr, -⟩
    cases hr

/-- A run on its own is orderly work. -/
theorem RunInput.orderly_alone (executor : Executor) (input : RunInput) (flag : Nat) :
    (input.alone executor flag).Orderly := fun w =>
  (input.follows_alone executor flag w).keepsTo (fun _ _ _ _ _ hstretch => hstretch.orderly)
    fun _ _ _ _ hleaves => hleaves.orderly

/-! ## Requests to the registry -/

namespace Registry

open Program

/-- A context is created in an orderly way. -/
theorem orderly_create (run : String) (organization : Organization) (declarations : Declarations) :
    (create run organization declarations).Orderly := by
  intro w
  have hsteady : w.Steady True 0 w := .refl w
  refine (RunInput.follows_create organization declarations hsteady).keepsTo
    (fun _ _ _ _ _ hstretch => hstretch.orderly) fun _ _ _ _ hlast => ?_
  rcases hlast.2.live with ⟨-, hlive⟩ | ⟨-, number, -, hgains⟩
  · exact .of_eq hlast.2.contexts hlive
  · exact hgains.orderly hlast.2.contexts

/-- Every request to the registry is orderly work. -/
theorem Request.orderly (request : Request) : request.program.Orderly := by
  have hturn : ∀ {ε : Type}, (Program.turn : Program World ε Unit).Orderly := keepsTo_waitFor .turn
  -- Each request takes turns first, which changes nothing, and then does one thing to the registry.
  cases request with
  | create run organization declarations =>
    exact (orderly_create run organization declarations).bind fun _ => keepsTo_pure _
  | get run =>
    refine KeepsTo.bind (hturn.bind fun _ => keepsTo_get.bind fun w => ?_) fun _ => keepsTo_pure _
    cases w.live.get? run with
    | some entry => exact keepsTo_pure _
    | none => exact keepsTo_fail _
  | contains run => exact hturn.bind fun _ => keepsTo_get.bind fun _ => keepsTo_pure _
  | discard run =>
    exact KeepsTo.bind (hturn.bind fun _ w => World.orderly_discardNow run w)
      fun _ => keepsTo_pure _
  | discardExpired maxAge =>
    have hnow : (World.now : Program World BindingError Nat).Orderly :=
      fun w => .of_eq (Nat.le_refl _) rfl
    refine KeepsTo.bind (hnow.bind fun now => hturn.bind fun _ w => ?_) fun _ => keepsTo_pure _
    exact World.orderly_expireAt now maxAge w

/-- A request to the registry as work of its own. -/
def Request.alone (request : Request) : Program World BindingError Unit := do
  let _ ← request.program

/-- A request to the registry as work of its own is orderly. -/
theorem Request.orderly_alone (request : Request) : request.alone.Orderly :=
  KeepsTo.bind request.orderly fun _ => keepsTo_pure ()

end Registry

end RunParams
