import RunParams.Credential.Basic
import RunParams.Json.Decode

/-!
# Credentials as data

How organizations and credentials are written as JSON objects and read back. Secrets are only read.
-/

namespace RunParams

open Decoder

namespace Organization

/-- Writes an organization. -/
def encode (o : Organization) : Json :=
  .ofMembers [("organization_id", .text o.id), ("organization_name", .option .text o.name)]

/-- Reads an organization. -/
def decode : Decoder Organization :=
  record "struct Organization" ["organization_id", "organization_name"] fun p =>
    Organization.mk <$> p.required "organization_id" text
      <*> p.defaulted "organization_name" (option text) none

end Organization

namespace CredentialType

/-- Writes a type. -/
def encode (t : CredentialType) : Json := .text t.name

/-- The type with a name; every unknown name is that of an unsupported type. -/
def ofName (name : String) : CredentialType :=
  if name = password.name then password
  else if name = creditCard.name then creditCard
  else unsupported

/-- Reads a type. -/
def decode : Decoder CredentialType := Decoder.name fun name => .ok (ofName name)

end CredentialType

namespace Credential

/-- Writes a credential. -/
def encode (c : Credential) : Json :=
  .ofMembers [("credential_id", .text c.id), ("organization_id", .text c.organization),
    ("name", .text c.name), ("credential_type", c.type.encode)]

/-- Reads a credential. -/
def decode : Decoder Credential :=
  record "struct Credential" ["credential_id", "organization_id", "name", "credential_type"]
    fun p => Credential.mk <$> p.required "credential_id" text
      <*> p.required "organization_id" text <*> p.required "name" text
      <*> p.required "credential_type" CredentialType.decode

end Credential

namespace PasswordSecret

/-- Reads a password secret. -/
def decode : Decoder PasswordSecret :=
  record "struct PasswordSecret" ["username", "password", "totp"] fun p =>
    PasswordSecret.mk <$> p.required "username" text <*> p.required "password" text
      <*> p.defaulted "totp" (option text) none

end PasswordSecret

namespace CreditCardSecret

/-- Reads the secret of a credit card. -/
def decode : Decoder CreditCardSecret :=
  record "struct CreditCardSecret" ["card_number", "card_cvv", "card_exp_month", "card_exp_year",
    "card_brand", "card_holder_name"] fun p =>
    CreditCardSecret.mk <$> p.required "card_number" text <*> p.required "card_cvv" text
      <*> p.required "card_exp_month" text <*> p.required "card_exp_year" text
      <*> p.required "card_brand" text <*> p.required "card_holder_name" text

end CreditCardSecret

end RunParams
