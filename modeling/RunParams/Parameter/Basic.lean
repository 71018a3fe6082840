import RunParams.Json.Basic

/-!
# Parameters

A parameter is a named place that a run binds to a value. There are five kinds of them. Workflow
parameters get their values from the inputs of the run, output parameters from its steps, and
context parameters from an entry of another parameter's value, to which they refer by kind and key.
Credential parameters and external secrets stand for secrets, and their values hold handles only.
-/

namespace RunParams

/-- The kinds of parameters. -/
inductive Kind where
  | workflow
  | context
  | output
  | credential
  | externalSecret
  deriving DecidableEq, Repr, Inhabited

namespace Kind

/-- The name of a kind. -/
def name : Kind → String
  | workflow => "workflow"
  | context => "context"
  | output => "output"
  | credential => "credential"
  | externalSecret => "external_secret"

/-- All kinds. -/
def all : List Kind := [workflow, context, output, credential, externalSecret]

/-- Whether a context parameter may take its value from a parameter of the kind. -/
def isContextSource : Kind → Bool
  | workflow | context | output => true
  | credential | externalSecret => false

end Kind

/-- The types of workflow parameters. -/
inductive ValueType where
  | string
  | integer
  | float
  | boolean
  | json
  | fileUrl
  /-- The value is the id of a credential and is replaced by handles for its fields. -/
  | credentialId
  deriving DecidableEq, Repr, Inhabited

namespace ValueType

/-- The name of a type. -/
def name : ValueType → String
  | string => "string"
  | integer => "integer"
  | float => "float"
  | boolean => "boolean"
  | json => "json"
  | fileUrl => "file_url"
  | credentialId => "credential_id"

/-- All types. -/
def all : List ValueType := [string, integer, float, boolean, json, fileUrl, credentialId]

end ValueType

/-- A reference to another parameter of the run. -/
structure Reference where
  kind : Kind
  key : String
  deriving DecidableEq, Repr, Inhabited

/-- A parameter that is bound to an input when the run starts. -/
structure WorkflowParameter where
  key : String
  description : Option String
  type : ValueType
  /-- The value for a run without such an input. -/
  default : Option Json
  deriving Repr, Inhabited

/-- A parameter that takes the output of a step. -/
structure OutputParameter where
  key : String
  description : Option String
  deriving DecidableEq, Repr, Inhabited

/-- A parameter that takes its value from another one's. -/
structure ContextParameter where
  key : String
  description : Option String
  source : Reference
  deriving DecidableEq, Repr, Inhabited

/-- A parameter that stands for the fields of a credential. -/
structure CredentialParameter where
  key : String
  description : Option String
  /-- The id of the credential, or the key of a parameter that holds it. -/
  credentialId : String
  deriving DecidableEq, Repr, Inhabited

/-- A parameter that stands for a secret outside the credential store. -/
structure ExternalSecretParameter where
  key : String
  description : Option String
  /-- The key of the secret in its store. -/
  secretKey : String
  deriving DecidableEq, Repr, Inhabited

/-- A parameter of any kind. -/
inductive Parameter where
  | workflow (parameter : WorkflowParameter)
  | context (parameter : ContextParameter)
  | output (parameter : OutputParameter)
  | credential (parameter : CredentialParameter)
  | externalSecret (parameter : ExternalSecretParameter)
  deriving Repr, Inhabited

/-- A parameter that stands for secrets. -/
inductive SecretParameter where
  | credential (parameter : CredentialParameter)
  | externalSecret (parameter : ExternalSecretParameter)
  deriving DecidableEq, Repr, Inhabited

namespace WorkflowParameter

/-- The parameter with a key and a type alone. -/
def ofKey (key : String) (type : ValueType) : WorkflowParameter := ⟨key, none, type, none⟩

end WorkflowParameter

namespace OutputParameter

/-- The ending of the key of a step's output. -/
def ending : String := "_output"

/-- The parameter with a key alone. -/
def ofKey (key : String) : OutputParameter := ⟨key, none⟩

/-- The parameter for the output of the step with a label. -/
def ofLabel (label : String) : OutputParameter := ofKey (label ++ ending)

/-- The label of the step that the key names, unless it would be empty. -/
def label? (parameter : OutputParameter) : Option String :=
  let key := parameter.key.toList
  let cut := key.length - ending.toList.length
  if key.drop cut = ending.toList ∧ 0 < cut then some (String.ofList (key.take cut)) else none

end OutputParameter

namespace ContextParameter

/-- The parameter with a key and a source alone. -/
def ofSource (key : String) (source : Reference) : ContextParameter := ⟨key, none, source⟩

end ContextParameter

namespace CredentialParameter

/-- The parameter with a key and a credential alone. -/
def ofId (key credentialId : String) : CredentialParameter := ⟨key, none, credentialId⟩

end CredentialParameter

namespace ExternalSecretParameter

/-- The parameter with a key and a secret alone. -/
def ofSecret (key secretKey : String) : ExternalSecretParameter := ⟨key, none, secretKey⟩

end ExternalSecretParameter

namespace Parameter

/-- The key. -/
def key : Parameter → String
  | workflow p => p.key
  | context p => p.key
  | output p => p.key
  | credential p => p.key
  | externalSecret p => p.key

/-- The kind. -/
def kind : Parameter → Kind
  | workflow _ => .workflow
  | context _ => .context
  | output _ => .output
  | credential _ => .credential
  | externalSecret _ => .externalSecret

/-- The description, if there is one. -/
def description : Parameter → Option String
  | workflow p => p.description
  | context p => p.description
  | output p => p.description
  | credential p => p.description
  | externalSecret p => p.description

/-- The reference to the parameter. -/
def reference (p : Parameter) : Reference := ⟨p.kind, p.key⟩

/-- The context parameter, if it is one. -/
def context? : Parameter → Option ContextParameter
  | context p => some p
  | _ => none

end Parameter

namespace SecretParameter

/-- The key. -/
def key : SecretParameter → String
  | credential p => p.key
  | externalSecret p => p.key

/-- The parameter among those of any kind. -/
def toParameter : SecretParameter → Parameter
  | credential p => .credential p
  | externalSecret p => .externalSecret p

end SecretParameter

/-- The label of a step is read back from the key of its output. -/
theorem OutputParameter.label?_ofLabel (label : String) (h : label ≠ "") :
    (ofLabel label).label? = some label := by
  have long : 0 < label.toList.length := by
    rcases hl : label.toList with _ | ⟨c, rest⟩
    · exact absurd (String.toList_inj.mp hl) h
    · simp
  have cut : (label.toList ++ ending.toList).length - ending.toList.length =
      label.toList.length := by simp
  simp only [label?, ofLabel, ofKey, String.toList_append, cut, List.drop_left, List.take_left,
    String.ofList_toList]
  simp [long]

end RunParams
