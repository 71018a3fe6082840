import RunParams.Parameter.Basic
import RunParams.Json.Decode

/-!
# Parameters as data

How parameters are written as JSON objects and read back. Every field is written, with null for a
missing description or default. The kind of a parameter is written in the field `parameter_type`.
-/

namespace RunParams

open Decoder

namespace Kind

/-- Writes a kind. -/
def encode (k : Kind) : Json := .text k.name

/-- Reads a kind. -/
def decode : Decoder Kind := variant (all.map fun k => (k.name, k))

end Kind

namespace ValueType

/-- Writes a type. -/
def encode (t : ValueType) : Json := .text t.name

/-- Reads a type. -/
def decode : Decoder ValueType := variant (all.map fun t => (t.name, t))

end ValueType

namespace Reference

/-- The fields of a reference. -/
def members (r : Reference) : List (String × Json) :=
  [("kind", r.kind.encode), ("key", .text r.key)]

/-- Writes a reference. -/
def encode (r : Reference) : Json := .ofMembers r.members

/-- Reads a reference. -/
def decode : Decoder Reference :=
  record "struct ParameterRef" ["kind", "key"] fun p =>
    Reference.mk <$> p.required "kind" Kind.decode <*> p.required "key" text

end Reference

namespace WorkflowParameter

/-- The fields of a workflow parameter. -/
def members (w : WorkflowParameter) : List (String × Json) :=
  [("key", .text w.key), ("description", .option .text w.description),
    ("workflow_parameter_type", w.type.encode), ("default_value", .option id w.default)]

/-- Writes a workflow parameter. -/
def encode (w : WorkflowParameter) : Json := .ofMembers w.members

/-- Reads a workflow parameter. -/
def decode : Decoder WorkflowParameter :=
  record "struct WorkflowParameter"
    ["key", "description", "workflow_parameter_type", "default_value"] fun p =>
    WorkflowParameter.mk <$> p.required "key" text <*> p.defaulted "description" (option text) none
      <*> p.required "workflow_parameter_type" ValueType.decode
      <*> p.defaulted "default_value" (option any) none

end WorkflowParameter

namespace OutputParameter

/-- The fields of an output parameter. -/
def members (o : OutputParameter) : List (String × Json) :=
  [("key", .text o.key), ("description", .option .text o.description)]

/-- Writes an output parameter. -/
def encode (o : OutputParameter) : Json := .ofMembers o.members

/-- Reads an output parameter. -/
def decode : Decoder OutputParameter :=
  record "struct OutputParameter" ["key", "description"] fun p =>
    OutputParameter.mk <$> p.required "key" text <*> p.defaulted "description" (option text) none

end OutputParameter

namespace ContextParameter

/-- The fields of a context parameter. -/
def members (c : ContextParameter) : List (String × Json) :=
  [("key", .text c.key), ("description", .option .text c.description),
    ("source", c.source.encode)]

/-- Writes a context parameter. -/
def encode (c : ContextParameter) : Json := .ofMembers c.members

/-- Reads a context parameter. -/
def decode : Decoder ContextParameter :=
  record "struct ContextParameter" ["key", "description", "source"] fun p =>
    ContextParameter.mk <$> p.required "key" text <*> p.defaulted "description" (option text) none
      <*> p.required "source" Reference.decode

end ContextParameter

namespace CredentialParameter

/-- The fields of a credential parameter. -/
def members (c : CredentialParameter) : List (String × Json) :=
  [("key", .text c.key), ("description", .option .text c.description),
    ("credential_id", .text c.credentialId)]

/-- Writes a credential parameter. -/
def encode (c : CredentialParameter) : Json := .ofMembers c.members

/-- Reads a credential parameter. -/
def decode : Decoder CredentialParameter :=
  record "struct CredentialParameter" ["key", "description", "credential_id"] fun p =>
    CredentialParameter.mk <$> p.required "key" text
      <*> p.defaulted "description" (option text) none <*> p.required "credential_id" text

end CredentialParameter

namespace ExternalSecretParameter

/-- The fields of an external secret. -/
def members (e : ExternalSecretParameter) : List (String × Json) :=
  [("key", .text e.key), ("description", .option .text e.description),
    ("secret_key", .text e.secretKey)]

/-- Writes an external secret. -/
def encode (e : ExternalSecretParameter) : Json := .ofMembers e.members

/-- Reads an external secret. -/
def decode : Decoder ExternalSecretParameter :=
  record "struct ExternalSecretParameter" ["key", "description", "secret_key"] fun p =>
    ExternalSecretParameter.mk <$> p.required "key" text
      <*> p.defaulted "description" (option text) none <*> p.required "secret_key" text

end ExternalSecretParameter

namespace Parameter

/-- The field that holds the kind. -/
def tag : String := "parameter_type"

/-- The fields of a parameter besides its kind. -/
def members : Parameter → List (String × Json)
  | workflow p => p.members
  | context p => p.members
  | output p => p.members
  | credential p => p.members
  | externalSecret p => p.members

/-- Writes a parameter. -/
def encode (p : Parameter) : Json := .ofMembers ((tag, p.kind.encode) :: p.members)

/-- Reads a parameter. -/
def decode : Decoder Parameter :=
  tagged "internally tagged enum Parameter" tag
    [(Kind.workflow.name, Decoder.apply workflow WorkflowParameter.decode),
      (Kind.context.name, Decoder.apply context ContextParameter.decode),
      (Kind.output.name, Decoder.apply output OutputParameter.decode),
      (Kind.credential.name, Decoder.apply credential CredentialParameter.decode),
      (Kind.externalSecret.name, Decoder.apply externalSecret ExternalSecretParameter.decode)]

end Parameter

namespace SecretParameter

/-- Writes a secret parameter. -/
def encode (p : SecretParameter) : Json := p.toParameter.encode

/-- Reads a secret parameter. -/
def decode : Decoder SecretParameter :=
  tagged "internally tagged enum SecretParameter" Parameter.tag
    [(Kind.credential.name, Decoder.apply credential CredentialParameter.decode),
      (Kind.externalSecret.name, Decoder.apply externalSecret ExternalSecretParameter.decode)]

end SecretParameter

end RunParams
