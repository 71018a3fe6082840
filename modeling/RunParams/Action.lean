import RunParams.Event

/-!
# Actions on a state

An `Action` works on a state `σ` without waiting for anything. It ends in a value or an error,
leaves a state in either case, and reports events on its way: what an action has done before it
fails stays done.
-/

namespace RunParams

/-- What an action leaves behind. -/
structure Effect (σ α : Type) where
  result : Except BindingError α
  state : σ
  events : List Event

/-- Work on a state. -/
def Action (σ α : Type) := σ → Effect σ α

namespace Action

variable {σ α β : Type}

/-- Goes on with the value of an action, unless it failed. -/
def bind (action : Action σ α) (next : α → Action σ β) : Action σ β := fun s =>
  let first := action s
  match first.result with
  | .error e => ⟨.error e, first.state, first.events⟩
  | .ok a =>
    let second := next a first.state
    ⟨second.result, second.state, first.events ++ second.events⟩

instance : Monad (Action σ) where
  pure a := fun s => ⟨.ok a, s, []⟩
  bind := bind

/-- The state. -/
def get : Action σ σ := fun s => ⟨.ok s, s, []⟩

/-- Changes the state. -/
def modify (f : σ → σ) : Action σ Unit := fun s => ⟨.ok (), f s, []⟩

/-- Reports an event. -/
def report (event : Event) : Action σ Unit := fun s => ⟨.ok (), s, [event]⟩

/-- Fails. -/
def fail (error : BindingError) : Action σ α := fun s => ⟨.error error, s, []⟩

/-- Succeeds or fails with a result at hand. -/
def ofExcept (result : Except BindingError α) : Action σ α := fun s => ⟨result, s, []⟩

/-- Works on a part of the state. -/
def within {τ : Type} (part : τ → σ) (replace : σ → τ → τ) (action : Action σ α) : Action τ α :=
  fun t =>
    let effect := action (part t)
    ⟨effect.result, replace effect.state t, effect.events⟩

@[simp] theorem pure_apply (a : α) (s : σ) : (pure a : Action σ α) s = ⟨.ok a, s, []⟩ := rfl

@[simp] theorem get_apply (s : σ) : (get : Action σ σ) s = ⟨.ok s, s, []⟩ := rfl

@[simp] theorem modify_apply (f : σ → σ) (s : σ) : modify f s = ⟨.ok (), f s, []⟩ := rfl

@[simp] theorem report_apply (event : Event) (s : σ) : report event s = ⟨.ok (), s, [event]⟩ := rfl

@[simp] theorem fail_apply (e : BindingError) (s : σ) :
    (fail e : Action σ α) s = ⟨.error e, s, []⟩ := rfl

@[simp] theorem ofExcept_apply (r : Except BindingError α) (s : σ) :
    ofExcept r s = ⟨r, s, []⟩ := rfl

/-- A successful action is followed by the next one. -/
theorem bind_ok {action : Action σ α} {next : α → Action σ β} {s s' : σ} {a : α}
    {events : List Event} (h : action s = ⟨.ok a, s', events⟩) :
    (action >>= next) s =
      ⟨(next a s').result, (next a s').state, events ++ (next a s').events⟩ := by
  show bind action next s = _
  simp [bind, h]

/-- A failed action is followed by nothing. -/
theorem bind_error {action : Action σ α} {next : α → Action σ β} {s s' : σ} {e : BindingError}
    {events : List Event} (h : action s = ⟨.error e, s', events⟩) :
    (action >>= next) s = ⟨.error e, s', events⟩ := by
  show bind action next s = _
  simp [bind, h]

end Action

end RunParams
