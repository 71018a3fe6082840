import RunParams.World

/-!
# Live contexts

A run has at most one live context. `create` binds the declarations of a run in a context of its own
and makes it live at the very end, so a run that could not be started leaves nothing behind. Since
that takes time, it looks twice whether the run has a live context: someone else may have created
one meanwhile.

A context stops being live when it is discarded, by its run or because it is too old. Whoever has
its number can still use it.
-/

namespace RunParams.Registry

open World (report)

variable {ε α : Type}

/-- Whether a run has a live context. -/
def contains (w : World) (run : String) : Bool := w.live.contains run

/-- The runs with a live context. -/
def runs (w : World) : List String := w.live.keys

/-- Makes a context live, unless the run has a live one already. -/
def insert (run : String) (context : Context) : Program World BindingError Nat := fun w =>
  if contains w run then .ended w (.error (.contextExists run))
  else
    let (number, w) := w.addContext context
    .ended ({ w with live := w.live.insert run ⟨number, context.createdAt⟩ }.logged
      [.contextCreated run]) (.ok number)

/-- Binds the declarations of a run in a new context and makes it live. -/
def create (run : String) (organization : Organization) (declarations : Declarations) :
    Program World BindingError Nat := do
  .turn
  if contains (← .get) run then .fail (.contextExists run)
  else
    let createdAt ← World.now
    let context := Context.fresh (← .get).settings run organization createdAt
    let context ← World.bind context declarations
    .turn
    insert run context

/-- The live context of a run. -/
def get (run : String) : Program World BindingError Nat := do
  .turn
  match (← .get).live.get? run with
  | some entry => return entry.context
  | none => .fail (.contextMissing run)

/-- Discards the live context of a run, at once, and says whether there was one. -/
def discardNow (run : String) (w : World) : Bool × World :=
  if contains w run then
    (true, { w with live := w.live.erase run }.logged [.contextDiscarded run])
  else (false, w)

/-- Discards the live context of a run and says whether there was one. -/
def discard (run : String) : Program World ε Bool := do
  .turn
  fun w =>
    let (found, w) := discardNow run w
    .ended w (.ok found)

/-- Discards the contexts that are older than a duration at a reading of the calendar, and says
whose they were. -/
def expireAt (now : Nat) (maxAge : Duration) (w : World) : List String × World :=
  let isExpired (entry : Entry) : Bool := maxAge.nanos < now - entry.createdAt
  let expired := (w.live.filter fun _ entry => isExpired entry).keys
  (expired, { w with live := w.live.filter fun _ entry => !isExpired entry }.logged
    (expired.map .contextExpired))

/-- Discards all contexts that are older than a duration and says whose they were. -/
def discardExpired (maxAge : Duration) : Program World ε (List String) := do
  let now ← World.now
  .turn
  fun w =>
    let (expired, w) := expireAt now maxAge w
    .ended w (.ok expired)

/-- Works on the live context of a run as soon as it is not locked. -/
def act (run : String) (action : Action Context α) : Program World BindingError α := do
  let number ← get run
  .waitFor (.context number)
  World.act number action

/-- Registers the parameters of a step of a run. -/
def register (run : String) (parameters : List Parameter) (organization : String) :
    Program World BindingError Unit :=
  act run (Context.register parameters organization)

/-- Records the output of a step of a run. -/
def recordOutput (run : String) (parameter : OutputParameter) (output : Json) :
    Program World BindingError Unit :=
  act run (Context.recordOutput parameter output)

/-- Adds the definition of a context parameter to a run. -/
def addContext (run : String) (p : ContextParameter) : Program World BindingError Unit :=
  act run (Context.addContext p)

/-- What is shown of the live contexts of a process with some settings. -/
def shown (settings : ResolverSettings) : String :=
  "RunContextRegistry \x7b config: ResolverConfig \x7b fetch_timeout: " ++
    shownResolver.shownLimit settings.fetchLimit ++ ", handle_prefix: " ++
    Text.quoted settings.handleLead ++ " \x7d, .. \x7d"

end RunParams.Registry
