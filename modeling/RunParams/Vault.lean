import RunParams.Json.Basic
import RunParams.Text.Quoted
import RunParams.Uuid

/-!
# Vaults

A vault keeps the secrets of one run. It is given a secret and hands out a handle: a text that is
made of a fixed lead, a random id and perhaps the name of a field, so nothing in it depends on the
secret. Only `Vault.reveal` leads from a handle back to the secret, and a vault forgets nothing.

The seed of a one-time password takes two entries. The handle itself reveals a label, which marks
the field, and the handle with an ending reveals the seed.
-/

namespace RunParams

/-- A text that must not be shown. -/
structure Secret where
  text : String
  deriving DecidableEq

/-- What is shown of a secret. -/
def Secret.shown (_ : Secret) : String := "SecretString(***)"

/-- The secrets of a run. -/
structure Vault where
  /-- How every handle begins. -/
  lead : String
  /-- The secrets under their handles. -/
  secrets : KeyMap Secret

namespace Vault

/-- How handles begin unless a setting says otherwise. -/
def defaultLead : String := "secret_"

/-- A vault without secrets. -/
def ofLead (lead : String) : Vault := ⟨lead, ∅⟩

instance : Inhabited Vault := ⟨ofLead defaultLead⟩

/-- What the handle of a one-time password reveals. -/
def totpLabel : String := "TOTP"

/-- The handle of the seed behind the handle of a one-time password. -/
def seedHandle (handle : String) : String := handle ++ "_value"

/-- The handle with an id, for a field or for a secret as a whole. -/
def handle (lead : String) (id : Uuid) : Option String → String
  | none => lead ++ id.render
  | some field => lead ++ id.render ++ "_" ++ field

/-- The secret behind a handle, if the text is one. -/
def revealText (v : Vault) (handle : String) : Option String :=
  (v.secrets.get? handle).map Secret.text

/-- The secret behind a value, if it is a handle. -/
def reveal (v : Vault) (value : Json) : Option String := value.text?.bind v.revealText

/-- Whether a text is a handle of the vault. -/
def contains (v : Vault) (handle : String) : Bool := v.secrets.contains handle

/-- The number of entries. -/
def size (v : Vault) : Nat := v.secrets.size

/-- Whether there are no entries. -/
def isEmpty (v : Vault) : Bool := v.secrets.isEmpty

/-- Puts a secret under a handle. -/
def keep (v : Vault) (handle : String) (secret : Secret) : Vault :=
  { v with secrets := v.secrets.insert handle secret }

/-- What is shown of a vault. -/
def shown (v : Vault) : String :=
  "SecretVault \x7b prefix: " ++ Text.quoted v.lead ++ ", entries: " ++ toString v.size ++ " \x7d"

end Vault

/-- A vault and the ids for its handles. -/
structure Mint where
  vault : Vault
  draws : Draws

namespace Mint

/-- Draws ids until one of them makes a handle that is not taken, at most `fuel` more. When the last
of them makes a taken one, too, that handle is returned, where drawing on would go on for as long as
handles are taken. With the fuel that `fresh` gives the two come to the same whenever one of the
next draws, as many as the vault has entries and one more, makes a handle that is not taken. This is
so if these draws are different ids, for then so are their handles, and they cannot all be taken. -/
def freshHandle (v : Vault) (field : Option String) : (fuel : Nat) → Draws → String × Draws
  | 0, d =>
    let (id, d) := d.draw
    (Vault.handle v.lead id field, d)
  | fuel + 1, d =>
    let (id, d) := d.draw
    let handle := Vault.handle v.lead id field
    if v.contains handle then freshHandle v field fuel d else (handle, d)

/-- Keeps a secret under a handle that is fresh, unless one id more than the vault has entries all
make taken ones (`freshHandle`). -/
def fresh (field : Option String) (secret : Secret) : StateM Mint String := fun m =>
  let (handle, draws) := freshHandle m.vault field m.vault.size m.draws
  (handle, ⟨m.vault.keep handle secret, draws⟩)

/-- Keeps a secret as a whole. -/
def whole (secret : String) : StateM Mint String := fresh none ⟨secret⟩

/-- Keeps the secret of a field. -/
def field (name secret : String) : StateM Mint String := fresh (some name) ⟨secret⟩

/-- Keeps the seed of a one-time password. -/
def totp (seed : String) : StateM Mint String := do
  let handle ← fresh (some "totp") ⟨Vault.totpLabel⟩
  modify fun m => { m with vault := m.vault.keep (Vault.seedHandle handle) ⟨seed⟩ }
  return handle

/-- Keeps the secrets of some fields. -/
def fields : List (String × String) → StateM Mint (List (String × String))
  | [] => pure []
  | (name, secret) :: rest => do
    let handle ← field name secret
    return (name, handle) :: (← fields rest)

end Mint

end RunParams
