import RunParams.Context.Basic
import RunParams.Parameter.Order

/-!
# Registering the parameters of a step

Before a step is executed its parameters are registered, in the order of
`Parameter.registrationOrder`. What is defined already is skipped, except for context parameters
that still wait for their value. Everything else has to be a context parameter. One that depends on
an output is only defined; it gets its value when the output is recorded. Any other takes its entry
from the value of its source.
-/

namespace RunParams

namespace Store

/-- Fails for a context parameter that refers to a kind of parameter that cannot be a source. -/
def checkSource (p : ContextParameter) : Except BindingError Unit :=
  if p.source.kind.isContextSource then .ok ()
  else .error (.invalidSource p.key p.source.kind.name)

/-- The entry for a context parameter in the value of its source. -/
def entryOf (s : Store) (p : ContextParameter) : Except BindingError Json :=
  match s.value? p.source.key with
  | none => .error (.notRegistered p.source.key)
  | some (.object members) => .ok ((Entries.find p.key members).getD .null)
  | some _ => .error (.malformedSource p.key p.source.key)

/-- The store with a context parameter that is registered. -/
def withContext (s : Store) (p : ContextParameter) : Except BindingError Store := do
  checkSource p
  if p.source.kind = .output then return s.define (.context p)
  else return s.bind (.context p) (← s.entryOf p)

/-- Whether a parameter is registered already. -/
def isRegistered (s : Store) (p : Parameter) : Bool := s.isDefined p.key && !s.isPending p.key

/-- Registers a parameter of a step of a run. -/
def registerOne (run : String) (p : Parameter) : Action Store Unit := do
  let s ← Action.get
  if s.isRegistered p then Action.report (.alreadyRegistered run p.key)
  else match p with
    | .context c =>
      let s ← Action.ofExcept (s.withContext c)
      Action.modify fun _ => s
    | p =>
      Action.report (.unexpectedParameter run p.key p.kind.name)
      Action.fail (.unexpectedParameter p.key p.kind.name)

/-- Registers parameters in a given order. -/
def registerAll (run : String) : List Parameter → Action Store Unit
  | [] => pure ()
  | p :: rest => do registerOne run p; registerAll run rest

/-- Registers the parameters of a step. -/
def register (run : String) (parameters : List Parameter) : Action Store Unit := do
  registerAll run (← Action.ofExcept (Parameter.registrationOrder parameters))

/-- Adds the definition of a context parameter. -/
def addContext (p : ContextParameter) : Action Store Unit := do
  Action.ofExcept (checkSource p)
  Action.modify (·.define (.context p))

end Store

namespace Context

/-- Registers the parameters of a step on behalf of an organization. -/
def register (parameters : List Parameter) (organization : String) : Action Context Unit := do
  let c ← Action.get
  if organization ≠ c.organization.id then
    Action.report (.foreignOrganization c.run organization)
  onStore (Store.register c.run parameters)

/-- Adds the definition of a context parameter. -/
def addContext (p : ContextParameter) : Action Context Unit := onStore (Store.addContext p)

end Context

end RunParams
