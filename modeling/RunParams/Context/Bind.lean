import RunParams.Context.Declarations
import RunParams.Context.Register
import RunParams.Resolver

/-!
# Binding the declarations of a run

When a run starts, its declarations are bound one after the other: workflow parameters to their
values, output parameters to nothing yet, secret parameters to handles, and last the context
parameters, which are only defined. The first one that cannot be bound ends it, and what was bound
before stays in the context, which then nobody uses.

Only here does a run wait, namely for credentials and external secrets.
-/

namespace RunParams

/-- A context and what surrounds it. -/
structure Desk where
  context : Context
  around : Surroundings

namespace Desk

variable {α : Type}

/-- Works on the store of the context. -/
def onStore (action : Action Store α) : Program Desk BindingError α := fun d =>
  let effect := action d.context.store
  .ended ⟨{ d.context with store := effect.state }, d.around.logged effect.events⟩ effect.result

/-- Works on the vault of the context. -/
def onVault (p : Program Bench BindingError α) : Program Desk BindingError α :=
  p.within (fun d => ⟨d.context.vault, d.around⟩)
    fun b d => ⟨{ d.context with vault := b.vault }, b.around⟩

/-- Resolves a credential of the organization of the run into an object of handles. -/
def resolveCredential (id : String) : Program Desk BindingError Json := do
  let d ← .get
  onVault (Bench.resolveCredential d.context.fetchLimit id d.context.organization.id)

/-- Resolves an external secret into a handle, if the store has it. -/
def resolveSecret (key : String) : Program Desk BindingError (Option String) := do
  let d ← .get
  onVault (Bench.resolveSecret d.context.fetchLimit key)

/-- Reports an event. -/
def report (event : Event) : Program Desk BindingError Unit :=
  .modify fun d => { d with around := d.around.logged [event] }

/-- Defines a parameter together with its value. -/
def define (p : Parameter) (value : Json) : Program Desk BindingError Unit :=
  onStore (Action.modify fun s => s.bind p value)

/-- Defines a workflow parameter together with its value. The id of a credential is replaced by
handles for its fields. -/
def defineWorkflow (b : WorkflowBinding) : Program Desk BindingError Unit :=
  if b.parameter.type = .credentialId then
    match b.value.text? with
    | none => .fail (.invalidCredentialReference b.parameter.key)
    | some id => do define (.workflow b.parameter) (← resolveCredential id)
  else define (.workflow b.parameter) b.value

/-- Binds a workflow parameter, in place of the one that its key may have. -/
def bindWorkflow (b : WorkflowBinding) : Program Desk BindingError Unit := do
  let d ← .get
  if d.context.store.isDefined b.parameter.key then
    report (.bindingReplaced d.context.run b.parameter.key)
  defineWorkflow b

/-- Declares an output parameter. -/
def declareOutput (p : OutputParameter) : Program Desk BindingError Unit := do
  let d ← .get
  if d.context.store.isDefined p.key then
    report (.outputKeyCollision d.context.run p.key)
    .fail (.outputKeyCollision p.key)
  else onStore (Action.modify fun s => s.define (.output p))

/-- The credential that a parameter designates: the text under the key that it names, if that key is
defined and has a value, and else what it names itself. -/
def designated (run : String) (p : CredentialParameter) : Action Store String := do
  let s ← Action.get
  if p.credentialId = "" then
    Action.report (.credentialIdMissing run p.key)
    Action.fail (.credentialNotFound p.key)
  else if s.isDefined p.credentialId then
    match s.value? p.credentialId with
    | none => return p.credentialId
    | some (.text id) => return id
    | some .null =>
      Action.report (.credentialIdNull run p.key)
      Action.fail (.credentialNotFound p.key)
    | some _ => Action.fail (.invalidCredentialReference p.credentialId)
  else return p.credentialId

/-- Binds a credential parameter to handles for the fields of its credential. -/
def bindCredential (p : CredentialParameter) : Program Desk BindingError Unit := do
  let d ← .get
  let id ← onStore (designated d.context.run p)
  define (.credential p) (← resolveCredential id)

/-- Binds an external secret to a handle, unless the store does not have it. -/
def bindExternalSecret (p : ExternalSecretParameter) : Program Desk BindingError Unit := do
  match ← resolveSecret p.secretKey with
  | some handle => define (.externalSecret p) (.text handle)
  | none =>
    let d ← .get
    report (.secretWithoutValue d.context.run p.key p.secretKey)

/-- Binds a secret parameter. -/
def bindSecret : SecretParameter → Program Desk BindingError Unit
  | .credential p => bindCredential p
  | .externalSecret p => bindExternalSecret p

/-- Defines a context parameter. -/
def declareContext (p : ContextParameter) : Program Desk BindingError Unit :=
  onStore (Store.addContext p)

/-- One declaration after another. -/
def each {β : Type} (work : β → Program Desk BindingError Unit) :
    List β → Program Desk BindingError Unit
  | [] => pure ()
  | b :: rest => do work b; each work rest

/-- Binds the declarations of a run. -/
def bindAll (declarations : Declarations) : Program Desk BindingError Unit := do
  each bindWorkflow declarations.bindings
  each declareOutput declarations.outputs
  each bindSecret declarations.secrets
  each declareContext declarations.contexts
  let d ← .get
  report (.contextBound d.context.run d.context.store.definitions.size d.context.vault.size)

end Desk

end RunParams
