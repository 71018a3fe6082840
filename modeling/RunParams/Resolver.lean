import RunParams.Lookup.Basic
import RunParams.Vault

/-!
# Resolving secrets into handles

A credential is resolved in two steps: its secret is fetched from the stores, and only when all of
it is there are its fields put into a vault. What a run gets are the handles. So nothing enters the
vault unless the credential exists, belongs to the organization and has a secret of its type.
-/

namespace RunParams

/-- The secret of a credential of any type. -/
inductive CredentialSecret where
  | password (secret : PasswordSecret)
  | creditCard (secret : CreditCardSecret)

/-- Puts the fields of a secret into a vault: the name and the handle of each. -/
def CredentialSecret.mint : CredentialSecret → StateM Mint (List (String × String))
  | creditCard secret => Mint.fields secret.fields
  | password secret => do
    let handles ← Mint.fields [("username", secret.username), ("password", secret.password)]
    match secret.seed? with
    | none => return handles
    | some seed => return handles ++ [("totp", ← Mint.totp seed)]

/-- A one-time password is minted after the two fields that every password has. -/
theorem CredentialSecret.mint_password (secret : PasswordSecret) (m : Mint) :
    (password secret).mint m =
      let first :=
        Mint.fields [("username", secret.username), ("password", secret.password)] m
      match secret.seed? with
      | none => first
      | some seed =>
        (first.1 ++ [("totp", (Mint.totp seed first.2).1)], (Mint.totp seed first.2).2) := by
  simp only [mint]
  generalize Mint.fields [("username", secret.username), ("password", secret.password)] = work
  cases secret.seed? <;> rfl

/-- The value of a parameter that stands for a credential. -/
def handlesValue (handles : List (String × String)) : Json :=
  .ofMembers (handles.map fun h => (h.1, .text h.2))

namespace Surroundings

/-- Fetches the secret of a credential that belongs to an organization. -/
def fetchCredential (limit : Option Duration) (id organization : String) :
    Program Surroundings BindingError CredentialSecret := do
  report (.fetchingCredential id organization)
  match ← (fetch limit id (.credential id organization)).attempt with
  | .error e =>
    report (.credentialFetchFailed id e)
    .fail e
  | .ok none => .fail (.credentialNotFound id)
  | .ok (some row) =>
    if row.organization ≠ organization then .fail (.credentialNotFound id)
    else match row.type with
      | .password =>
        match ← fetch limit id (.password row.id) with
        | none => .fail (.credentialNotFound id)
        | some secret => return .password secret
      | .creditCard =>
        match ← fetch limit id (.creditCard row.id) with
        | none => .fail (.credentialNotFound id)
        | some secret => return .creditCard secret
      | .unsupported =>
        report (.unsupportedCredential id)
        .fail (.credentialNotFound id)

/-- Fetches an external secret, if the store has it. -/
def fetchSecret (limit : Option Duration) (key : String) :
    Program Surroundings BindingError (Option String) :=
  fetch limit key (.secret key)

end Surroundings

/-- A vault and what surrounds it. -/
structure Bench where
  vault : Vault
  around : Surroundings

namespace Bench

/-- Works on the surroundings. -/
def outside {ε α : Type} (p : Program Surroundings ε α) : Program Bench ε α :=
  p.within Bench.around fun around b => { b with around }

/-- Puts secrets into the vault. -/
def mint {ε α : Type} (m : StateM Mint α) : Program Bench ε α := fun b =>
  let (a, after) := m ⟨b.vault, b.around.draws⟩
  .ended ⟨after.vault, { b.around with draws := after.draws }⟩ (.ok a)

/-- Resolves a credential into an object with a handle for each field. -/
def resolveCredential (limit : Option Duration) (id organization : String) :
    Program Bench BindingError Json := do
  let secret ← outside (Surroundings.fetchCredential limit id organization)
  return handlesValue (← mint secret.mint)

/-- Resolves an external secret into a handle, if the store has it. -/
def resolveSecret (limit : Option Duration) (key : String) :
    Program Bench BindingError (Option String) := do
  match ← outside (Surroundings.fetchSecret limit key) with
  | none => return none
  | some secret => return some (← mint (Mint.whole secret))

end Bench

/-- What is shown of whatever resolves secrets with a limit. -/
def shownResolver (limit : Option Duration) : String :=
  "CredentialSecretAdapter \x7b fetch_timeout: " ++ shownLimit limit ++ ", .. \x7d"
where
  /-- What is shown of a limit. -/
  shownLimit : Option Duration → String
    | none => "None"
    | some d => "Some(" ++ d.render ++ ")"

end RunParams
