import RunParams.Context.Bind

/-!
# The world of a process

What the runs of one process share and change: the contexts, which of them are live, the locks on
them, the flags that ask a run to stop, the permits of gates, and what surrounds them all. A context
keeps its number for ever, also when it is not live any more; a run id may name several contexts in
the course of time.

`World.calls` remembers which steps were executed, each with the context that the executor saw.
-/

namespace RunParams

/-- The entry of a live context. -/
structure Entry where
  /-- The number of the context. -/
  context : Nat
  createdAt : Nat
  deriving DecidableEq, Repr, Inhabited

/-- A lock on a context, held by the run with a flag. -/
structure Lock where
  context : Nat
  holder : Nat
  deriving DecidableEq, Repr

/-- The execution of a step. -/
structure Call where
  run : String
  label : String
  context : Context

/-- The state of a process. -/
structure World where
  settings : ResolverSettings
  around : Surroundings
  /-- The last reading of the calendar, in nanoseconds. -/
  calendar : Nat
  /-- All contexts by number. -/
  contexts : List Context
  /-- The live contexts by run. -/
  live : KeyMap Entry
  locks : List Lock
  /-- The flags that ask runs to stop, by number. -/
  flags : List Bool
  /-- The permits that gates have to give. -/
  permits : KeyMap Nat
  calls : List Call

namespace World

variable {ε α : Type}

/-- The world of a process that has just started. -/
def start (settings : ResolverSettings) (backend : Backend) (draws : Draws) : World :=
  ⟨settings, ⟨backend, [], draws, 0, []⟩, 0, [], ∅, [], [], ∅, []⟩

/-- Adds events to the log. -/
def logged (w : World) (events : List Event) : World := { w with around := w.around.logged events }

/-- The permits of a gate. -/
def permitsOf (w : World) (gate : String) : Nat := (w.permits.get? gate).getD 0

/-- Gives a gate more permits. -/
def permit (w : World) (gate : String) (count : Nat) : World :=
  { w with permits := w.permits.insert gate (w.permitsOf gate + count) }

/-- Whether a flag is raised. -/
def flagged (w : World) (flag : Nat) : Bool := w.flags.getD flag false

/-- Raises a flag. -/
def raiseFlag (w : World) (flag : Nat) : World := { w with flags := w.flags.set flag true }

/-- Adds a flag and says which number it has. -/
def addFlag (w : World) : Nat × World := (w.flags.length, { w with flags := w.flags ++ [false] })

/-- Lets a number of ticks pass on the clock, unless it is there already. -/
def clockTo (w : World) (due : Nat) : World :=
  { w with around := { w.around with clock := max w.around.clock due } }

/-- Whether a context is locked. -/
def isLocked (w : World) (context : Nat) : Bool := w.locks.any fun l => l.context = context

/-- Whether what a program waits for is there. -/
def isOver : Wait → World → Bool
  | .turn, _ => true
  | .clock due, w => due ≤ w.around.clock
  | .context number, w => !w.isLocked number
  | .permit gate, w => 0 < w.permitsOf gate

/-- Makes true what a program waits for, as far as nobody else has to do it. -/
def pass : Wait → World → World
  | .clock due, w => w.clockTo due
  | _, w => w

/-- Reports an event. -/
def report (event : Event) : Program World ε Unit := .modify (·.logged [event])

/-- Reads the calendar. No two readings are the same. -/
def now : Program World ε Nat := fun w =>
  .ended { w with calendar := w.calendar + 1 } (.ok (w.calendar + 1))

/-- Adds a context that is not live and says which number it has. -/
def addContext (w : World) (context : Context) : Nat × World :=
  (w.contexts.length, { w with contexts := w.contexts ++ [context] })

/-- Adds a context in which nothing is bound. -/
def openContext (run : String) (organization : Organization) : Program World ε Nat := do
  let createdAt ← now
  fun w =>
    let (number, w) := w.addContext (.fresh w.settings run organization createdAt)
    .ended w (.ok number)

/-- Works on a context, at once. -/
def act (number : Nat) (action : Action Context α) : Program World BindingError α := fun w =>
  let effect := action (w.contexts.getD number default)
  .ended ({ w with contexts := w.contexts.set number effect.state }.logged effect.events)
    effect.result

/-- Binds declarations in a context that nobody else has. -/
def bind (context : Context) (declarations : Declarations) :
    Program World BindingError Context := do
  let (context, _) ← (Desk.bindAll declarations).beside (fun context w => ⟨context, w.around⟩)
    Desk.context (fun d w => { w with around := d.around }) context
  return context

/-- Binds declarations in the context with a number. -/
def bindIn (number : Nat) (declarations : Declarations) : Program World BindingError Unit :=
  (Desk.bindAll declarations).within (fun w => ⟨w.contexts.getD number default, w.around⟩)
    fun d w => { w with contexts := w.contexts.set number d.context, around := d.around }

/-- Locks a context for the run with a flag, as soon as no one else does. -/
def lock (number holder : Nat) : Program World ε Unit := do
  .waitFor (.context number)
  .modify fun w => { w with locks := ⟨number, holder⟩ :: w.locks }

/-- A context that is there is the one with its number. -/
theorem getD_contexts {w : World} {number : Nat} {c : Context}
    (h : w.contexts[number]? = some c) : w.contexts.getD number default = c := by
  rw [List.getD_eq_getElem?_getD, h]
  rfl

/-- Gives up all locks of the run with a flag. -/
def unlock (w : World) (holder : Nat) : World :=
  { w with locks := w.locks.filter fun l => l.holder ≠ holder }

end World

end RunParams
