import RunParams.Credential.Basic
import RunParams.Store.Output
import RunParams.Vault

/-!
# Run contexts

The state of one run: its store, its vault and the metadata of its steps. What needs no store but
its own is an `Action` here. Binding the declarations of a run, which has to wait for credentials
and secrets, is in `RunParams.Context.Bind`.
-/

namespace RunParams

/-- The settings that all contexts of a process share. -/
structure ResolverSettings where
  /-- How long to wait for a store, if there is a limit. -/
  fetchLimit : Option Duration
  /-- How handles begin. -/
  handleLead : String
  deriving DecidableEq, Repr

namespace ResolverSettings

/-- No limit, and the usual handles. -/
def standard : ResolverSettings := ⟨none, Vault.defaultLead⟩

instance : Inhabited ResolverSettings := ⟨standard⟩

end ResolverSettings

/-- The state of a run. -/
structure Context where
  run : String
  organization : Organization
  /-- The reading of the calendar at the creation, in nanoseconds. -/
  createdAt : Nat
  fetchLimit : Option Duration
  vault : Vault
  store : Store
  /-- What is noted about the steps, by label. -/
  metadata : KeyMap (KeyMap Json)
  deriving Inhabited

namespace Context

/-- A context in which nothing is bound. -/
def fresh (settings : ResolverSettings) (run : String) (organization : Organization)
    (createdAt : Nat) : Context :=
  ⟨run, organization, createdAt, settings.fetchLimit, .ofLead settings.handleLead, .empty, ∅⟩

/-- Works on the store of a context. -/
def onStore {α : Type} (action : Action Store α) : Action Context α :=
  action.within Context.store fun store c => { c with store }

/-- The value of a key. What stands for a secret holds handles only. -/
def get (c : Context) (key : String) : Except BindingError Json :=
  match c.store.value? key with
  | some value => .ok value
  | none => .error (.notRegistered key)

/-- Whether a key has a value. -/
def has (c : Context) (key : String) : Bool := c.store.hasValue key

/-- Sets a value that belongs to no declared parameter. -/
def set (c : Context) (key : String) (value : Json) : Context :=
  { c with store := c.store.set key value }

/-- The definition of a key. -/
def parameter? (c : Context) (key : String) : Option Parameter := c.store.definition? key

/-- Whether a key is defined. -/
def hasParameter (c : Context) (key : String) : Bool := c.store.isDefined key

/-- The secret behind a value, if it is a handle of the run. -/
def reveal (c : Context) (value : Json) : Option String := c.vault.reveal value

/-- The number of entries in the vault. -/
def secretCount (c : Context) : Nat := c.vault.size

/-- Records the output of a step. -/
def recordOutput (parameter : OutputParameter) (output : Json) : Action Context Unit :=
  onStore (Store.record parameter output)

/-- What is noted about a step. -/
def notes (c : Context) (label : String) : KeyMap Json := (c.metadata.get? label).getD ∅

/-- Notes more about a step; new fields win. -/
def annotate (c : Context) (label : String) (fields : KeyMap Json) : Context :=
  { c with metadata := c.metadata.insert label ((c.notes label).union fields) }

end Context

end RunParams
