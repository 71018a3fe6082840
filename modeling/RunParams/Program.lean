/-!
# Programs that wait

A `Program` works on a state `σ` that it shares with others. It ends in a value or an error, or
stops at a `Wait` and goes on later from the state that the others have left by then. Where it stops
is explicit in `Paused`, so every order in which programs can take turns is a choice of when to
resume which of them, and a program on its own is one such order (`Paused.alone`).
-/

namespace RunParams

/-- What a program waits for. -/
inductive Wait where
  /-- Nothing: a point at which others may go on. -/
  | turn
  /-- The clock stands at a tick or later. -/
  | clock (due : Nat)
  /-- A context is not locked. -/
  | context (number : Nat)
  /-- A gate has a permit to give. -/
  | permit (gate : String)
  deriving DecidableEq, Repr, Inhabited

/-- How far a program has come. -/
inductive Paused (σ ε α : Type) where
  /-- It has ended. -/
  | ended (state : σ) (result : Except ε α)
  /-- It waits, and goes on from the state that it then finds. -/
  | waiting (state : σ) (wait : Wait) (resume : σ → Paused σ ε α)

namespace Paused

variable {σ τ δ ε ε' α β γ : Type}

/-- The state that the program has left. -/
def state : Paused σ ε α → σ
  | ended s _ => s
  | waiting s _ _ => s

/-- Goes on with the value once the program has ended, unless it failed. -/
def bind (next : α → σ → Paused σ ε β) : Paused σ ε α → Paused σ ε β
  | ended s (.ok a) => next a s
  | ended s (.error e) => ended s (.error e)
  | waiting s w resume => waiting s w fun s' => bind next (resume s')

/-- Three programs in a row, however they are grouped. -/
theorem bind_assoc (p : Paused σ ε α) (next : α → σ → Paused σ ε β)
    (last : β → σ → Paused σ ε γ) :
    (p.bind next).bind last = p.bind fun a s => (next a s).bind last := by
  induction p with
  | ended s r => cases r <;> rfl
  | waiting s w resume ih => simp only [bind, ih]

/-- Makes an error of the program a value. -/
def attempt : Paused σ ε α → Paused σ ε' (Except ε α)
  | ended s r => ended s (.ok r)
  | waiting s w resume => waiting s w fun s' => attempt (resume s')

/-- A program whose outcome is passed on as it is. -/
theorem attempt_bind_ended (p : Paused σ ε α) :
    (p.attempt : Paused σ ε (Except ε α)).bind (fun r s => ended s r) = p := by
  induction p with
  | ended s r => rfl
  | waiting s w resume ih => exact congrArg (waiting s w) (funext ih)

/-- The program as part of one on a greater state. -/
def within (part : τ → σ) (replace : σ → τ → τ) (whole : τ) : Paused σ ε α → Paused τ ε α
  | ended s r => ended (replace s whole) r
  | waiting s w resume =>
    waiting (replace s whole) w fun whole' => within part replace whole' (resume (part whole'))

/-- The program as part of one that shares only some of its state. Its own part stays with it and is
in the end returned along with its value. -/
def beside (join : τ → σ → δ) (own : δ → τ) (replace : δ → σ → σ) (shared : σ) :
    Paused δ ε α → Paused σ ε (τ × α)
  | ended d r => ended (replace d shared) (r.map fun a => (own d, a))
  | waiting d w resume =>
    waiting (replace d shared) w fun shared' =>
      beside join own replace shared' (resume (join (own d) shared'))

/-- Resumes the program again and again. At each wait `pass` makes true what is waited for. -/
def alone (pass : Wait → σ → σ) : Paused σ ε α → Except ε α × σ
  | ended s r => (r, s)
  | waiting s w resume => alone pass (resume (pass w s))

/-- Resumes the program as long as what it waits for is there already. -/
def advance (isOver : Wait → σ → Bool) : Paused σ ε α → Paused σ ε α
  | ended s r => ended s r
  | waiting s w resume =>
    if isOver w s then advance isOver (resume s) else waiting s w resume

end Paused

/-- Work on a shared state. -/
def Program (σ ε α : Type) := σ → Paused σ ε α

namespace Program

variable {σ τ δ ε ε' α β γ : Type}

instance : Monad (Program σ ε) where
  pure a := fun s => .ended s (.ok a)
  bind p next := fun s => (p s).bind next

/-- Three programs in a row, however they are grouped. -/
theorem bind_assoc (p : Program σ ε α) (next : α → Program σ ε β) (last : β → Program σ ε γ) :
    (p >>= next >>= last) = p >>= fun a => next a >>= last :=
  funext fun s => (p s).bind_assoc next last

/-- The state. -/
def get : Program σ ε σ := fun s => .ended s (.ok s)

/-- Changes the state. -/
def modify (f : σ → σ) : Program σ ε Unit := fun s => .ended (f s) (.ok ())

/-- Fails. -/
def fail (error : ε) : Program σ ε α := fun s => .ended s (.error error)

/-- Succeeds or fails with a result at hand. -/
def ofExcept (result : Except ε α) : Program σ ε α := fun s => .ended s result

/-- Stops until what is waited for is there. -/
def waitFor (wait : Wait) : Program σ ε Unit := fun s =>
  .waiting s wait fun s' => .ended s' (.ok ())

/-- Lets others go on. -/
def turn : Program σ ε Unit := waitFor .turn

/-- The outcome of a program, be it a value or an error. -/
def attempt (p : Program σ ε α) : Program σ ε' (Except ε α) := fun s => (p s).attempt

/-- Works on a part of the state. -/
def within (part : τ → σ) (replace : σ → τ → τ) (p : Program σ ε α) : Program τ ε α := fun t =>
  (p (part t)).within part replace t

/-- Works on the state together with a state of its own. -/
def beside (join : τ → σ → δ) (own : δ → τ) (replace : δ → σ → σ) (start : τ)
    (p : Program δ ε α) : Program σ ε (τ × α) := fun s =>
  (p (join start s)).beside join own replace s

@[simp] theorem pure_apply (a : α) (s : σ) :
    (pure a : Program σ ε α) s = .ended s (.ok a) := rfl

@[simp] theorem get_apply (s : σ) : (get : Program σ ε σ) s = .ended s (.ok s) := rfl

@[simp] theorem modify_apply (f : σ → σ) (s : σ) :
    (modify f : Program σ ε Unit) s = .ended (f s) (.ok ()) := rfl

@[simp] theorem fail_apply (e : ε) (s : σ) :
    (fail e : Program σ ε α) s = .ended s (.error e) := rfl

@[simp] theorem ofExcept_apply (r : Except ε α) (s : σ) :
    (ofExcept r : Program σ ε α) s = .ended s r := rfl

end Program

end RunParams
