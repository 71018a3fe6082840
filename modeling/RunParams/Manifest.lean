import RunParams.Credential.Format
import RunParams.Lookup.Memory
import RunParams.Run.Perform

/-!
# Manifests of dry runs

A manifest describes one run as a JSON text: the workflow, the organization, the inputs, and
fixtures, the credentials and secrets for stores in memory. The fixtures belong to the organization
of the run.
-/

namespace RunParams

open Decoder

/-- A credential for a store in memory. -/
inductive Fixture where
  | password (id : String) (secret : PasswordSecret)
  | creditCard (id : String) (secret : CreditCardSecret)

namespace Fixture

/-- Reads a fixture; its type is in the field `type`. -/
def decode : Decoder Fixture :=
  tagged "internally tagged enum CredentialFixture" "type"
    [("password", record "struct variant CredentialFixture::Password" fields fun p =>
        password <$> p.required "credential_id" text
          <*> p.required "secret" PasswordSecret.decode),
      ("credit_card", record "struct variant CredentialFixture::CreditCard" fields fun p =>
        creditCard <$> p.required "credential_id" text
          <*> p.required "secret" CreditCardSecret.decode)]
where
  /-- The fields of every fixture. -/
  fields : List String := ["credential_id", "secret"]

/-- Adds a fixture to a store, as a credential of an organization. -/
def addTo (organization : String) (m : Memory) : Fixture → Memory
  | password id secret => m.addPassword id organization secret
  | creditCard id secret => m.addCreditCard id organization secret

end Fixture

/-- The description of a dry run. -/
structure Manifest where
  /-- The id of the run, if it is to have a certain one. -/
  run : Option String
  organization : Organization
  workflow : Workflow
  inputs : KeyMap Json
  fixtures : List Fixture
  /-- The external secrets. -/
  secrets : KeyMap String

namespace Manifest

/-- Reads a manifest. -/
def decode : Decoder Manifest :=
  record "struct Manifest"
    ["run_id", "organization", "workflow", "inputs", "credentials", "secrets"] fun p =>
    Manifest.mk <$> p.defaulted "run_id" (option text) none
      <*> p.required "organization" Organization.decode <*> p.required "workflow" Workflow.decode
      <*> p.defaulted "inputs" (map any) ∅ <*> p.defaulted "credentials" (list Fixture.decode) []
      <*> p.defaulted "secrets" (map text) ∅

/-- Reads a manifest from its text. -/
def ofText (text : String) : Except DecodeError Manifest := Decoder.ofText decode text

/-- The stores with the fixtures of a manifest. -/
def seed (m : Manifest) : Memory :=
  m.secrets.entries.foldl (fun memory e => memory.addSecret e.1 e.2)
    (m.fixtures.foldl (Fixture.addTo m.organization.id) .empty)

/-- The run of a manifest, under an id. -/
def input (m : Manifest) (run : String) : RunInput := ⟨run, m.organization, m.workflow, m.inputs⟩

end Manifest

end RunParams
