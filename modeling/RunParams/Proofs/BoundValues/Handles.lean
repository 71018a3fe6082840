import RunParams.Context.Bind
import RunParams.Proofs.KeyMaps
import RunParams.Proofs.Program.Endings

/-!
# Handles that reveal

A vault forgets nothing (`Vault.Grows`), so what is a handle once stays one. Whatever is minted for
a credential is a handle of the vault that it leaves (`CredentialSecret.mint_reveals`), so the value
of a parameter that stands for a credential is an object all of whose entries reveal a secret
(`Vault.HoldsHandles`), however long the stores may take to answer
(`Bench.holdsHandles_of_resolveCredential`).
-/

namespace RunParams

namespace Vault

variable {u v w : Vault}

/-- A value is a handle behind which there is a secret. -/
def Reveals (v : Vault) (value : Json) : Prop := ∃ secret, v.reveal value = some secret

/-- Whatever reveals a secret in the one vault reveals one in the other. -/
def Grows (v w : Vault) : Prop := ∀ value, v.Reveals value → w.Reveals value

/-- A vault grows when nothing happens. -/
theorem Grows.refl (v : Vault) : v.Grows v := fun _ h => h

/-- Growth adds up. -/
theorem Grows.trans (h : u.Grows v) (h' : v.Grows w) : u.Grows w :=
  fun value hvalue => h' value (h value hvalue)

/-- What is revealed when one more secret is kept. -/
theorem reveal_keep (v : Vault) (handle : String) (secret : Secret) (other : String) :
    (v.keep handle secret).reveal (.text other) =
      if other = handle then some secret.text else v.reveal (.text other) := by
  show ((v.secrets.insert handle secret).get? other).map Secret.text = _
  rw [KeyMap.get?_insert]
  by_cases hother : other = handle
  · rw [if_pos hother, if_pos hother]
    rfl
  · rw [if_neg hother, if_neg hother]
    rfl

/-- Under a handle at which a secret is kept there is a secret. -/
theorem reveals_kept (v : Vault) (handle : String) (secret : Secret) :
    (v.keep handle secret).Reveals (.text handle) :=
  ⟨secret.text, by rw [reveal_keep, if_pos rfl]⟩

/-- A vault grows when a secret is kept. -/
theorem grows_keep (v : Vault) (handle : String) (secret : Secret) :
    v.Grows (v.keep handle secret) := by
  rintro value ⟨shown, hshown⟩
  -- Only texts are handles.
  cases value with
  | text other =>
    by_cases hother : other = handle
    · -- The secret may be another one now, but there is one.
      rw [hother]
      exact reveals_kept v handle secret
    · refine ⟨shown, ?_⟩
      rw [reveal_keep, if_neg hother, hshown]
  | _ => cases hshown

/-- A value is an object of handles. -/
def HoldsHandles (v : Vault) (value : Json) : Prop :=
  ∃ members, value = .object members ∧ ∀ e ∈ members, v.Reveals e.2

/-- An object of handles remains one. -/
theorem HoldsHandles.grows {value : Json} (h : v.HoldsHandles value) (hgrows : v.Grows w) :
    w.HoldsHandles value := by
  obtain ⟨members, rfl, hmembers⟩ := h
  exact ⟨members, rfl, fun e he => hgrows _ (hmembers e he)⟩

/-- A member of an object of handles is one. -/
theorem HoldsHandles.reveals_member {value entry : Json} {key : String} (h : v.HoldsHandles value)
    (hmember : value.member? key = some entry) : v.Reveals entry := by
  obtain ⟨members, rfl, hmembers⟩ := h
  exact hmembers (key, entry) (Entries.mem_of_find hmember)

end Vault

/-- The value made up of names and handles holds handles. -/
theorem holdsHandles_handlesValue {v : Vault} {handles : List (String × String)}
    (h : ∀ e ∈ handles, v.Reveals (.text e.2)) : v.HoldsHandles (handlesValue handles) := by
  refine ⟨_, rfl, fun e he => ?_⟩
  obtain ⟨entry, hentry, rfl⟩ := List.mem_map.mp (Entries.mem_sort he)
  exact h entry hentry

namespace Mint

/-- A fresh handle reveals, and the vault has grown. -/
theorem fresh_reveals (name : Option String) (secret : Secret) (m : Mint) :
    m.vault.Grows (fresh name secret m).2.vault ∧
      (fresh name secret m).2.vault.Reveals (.text (fresh name secret m).1) :=
  ⟨Vault.grows_keep _ _ _, Vault.reveals_kept _ _ _⟩

/-- The handle of a one-time password reveals, and the vault has grown. -/
theorem totp_reveals (seed : String) (m : Mint) :
    m.vault.Grows (totp seed m).2.vault ∧
      (totp seed m).2.vault.Reveals (.text (totp seed m).1) := by
  obtain ⟨hgrows, hreveals⟩ := fresh_reveals (some "totp") ⟨Vault.totpLabel⟩ m
  -- The seed is kept after the handle, under one of its own that nobody is given.
  have hseed := Vault.grows_keep (fresh (some "totp") ⟨Vault.totpLabel⟩ m).2.vault
    (Vault.seedHandle (fresh (some "totp") ⟨Vault.totpLabel⟩ m).1) ⟨seed⟩
  exact ⟨hgrows.trans hseed, hseed _ hreveals⟩

/-- The handles of some fields reveal, and the vault has grown. -/
theorem fields_reveals (secrets : List (String × String)) (m : Mint) :
    m.vault.Grows (fields secrets m).2.vault ∧
      ∀ e ∈ (fields secrets m).1, (fields secrets m).2.vault.Reveals (.text e.2) := by
  -- What the first field has added is still there after the others.
  induction secrets generalizing m with
  | nil => exact ⟨Vault.Grows.refl _, fun e he => absurd he List.not_mem_nil⟩
  | cons first rest ih =>
    obtain ⟨name, secret⟩ := first
    obtain ⟨hgrows, hreveals⟩ := fresh_reveals (some name) ⟨secret⟩ m
    obtain ⟨hrest, hall⟩ := ih (field name secret m).2
    refine ⟨hgrows.trans hrest, fun e he => ?_⟩
    rcases List.mem_cons.mp he with rfl | he
    · exact hrest _ hreveals
    · exact hall e he

end Mint

/-- What is minted for a credential reveals, and the vault has grown. -/
theorem CredentialSecret.mint_reveals (secret : CredentialSecret) (m : Mint) :
    m.vault.Grows (secret.mint m).2.vault ∧
      ∀ e ∈ (secret.mint m).1, (secret.mint m).2.vault.Reveals (.text e.2) := by
  cases secret with
  | creditCard card => exact Mint.fields_reveals card.fields m
  | password secret =>
    -- The two fields that every password has come first, and with a seed a third one.
    obtain ⟨hgrows, hreveals⟩ :=
      Mint.fields_reveals [("username", secret.username), ("password", secret.password)] m
    rw [mint_password]
    cases secret.seed? with
    | none => exact ⟨hgrows, hreveals⟩
    | some seed =>
      obtain ⟨hgrows', hreveals'⟩ := Mint.totp_reveals seed
        (Mint.fields [("username", secret.username), ("password", secret.password)] m).2
      refine ⟨hgrows.trans hgrows', fun e he => ?_⟩
      rcases List.mem_append.mp he with he | he
      · exact hgrows' _ (hreveals e he)
      · cases List.mem_singleton.mp he
        exact hreveals'

namespace Bench

variable {b b' : Bench} {limit : Option Duration}

/-- While a vault waits for the stores, nobody else touches it. -/
def SameVault (b b' : Bench) : Prop := b'.vault = b.vault

/-- Work on the surroundings leaves the vault alone. -/
theorem vault_of_outside {α : Type} {p : Program Surroundings BindingError α}
    {r : Except BindingError α} (h : (outside p b).CanEnd SameVault b' r) :
    b'.vault = b.vault := by
  obtain ⟨around, whole, -, hframe, rfl⟩ := Paused.CanEnd.of_within (fun _ _ => True)
    (fun whole => whole.vault = b.vault) (fun _ _ _ _ => trivial)
    (fun _ _ _ hframe hkept => hkept.trans hframe) rfl h
  exact hframe

/-- A resolved credential holds handles of the vault, which has grown. -/
theorem holdsHandles_of_resolveCredential {id organization : String} {value : Json}
    (h : (resolveCredential limit id organization b).CanEnd SameVault b' (.ok value)) :
    b.vault.Grows b'.vault ∧ b'.vault.HoldsHandles value := by
  obtain ⟨s, secret, hfetch, hmint⟩ := Paused.CanEnd.of_bind_ok h
  have hvault : s.vault = b.vault := vault_of_outside hfetch
  obtain ⟨rfl, hvalue⟩ := hmint.of_ended
  cases hvalue
  obtain ⟨hgrows, hreveals⟩ := secret.mint_reveals ⟨s.vault, s.around.draws⟩
  rw [← hvault]
  exact ⟨hgrows, holdsHandles_handlesValue hreveals⟩

/-- The vault has grown when an external secret is resolved. -/
theorem grows_of_resolveSecret {key : String} {result : Option String}
    (h : (resolveSecret limit key b).CanEnd SameVault b' (.ok result)) :
    b.vault.Grows b'.vault := by
  obtain ⟨s, found, hfetch, hmint⟩ := Paused.CanEnd.of_bind_ok h
  have hvault : s.vault = b.vault := vault_of_outside hfetch
  rw [← hvault]
  -- Without a secret the vault is left as it was.
  cases found with
  | none =>
    obtain ⟨rfl, -⟩ := hmint.of_ended
    exact Vault.Grows.refl b'.vault
  | some secret =>
    obtain ⟨rfl, -⟩ := hmint.of_ended
    exact (Mint.fresh_reveals none ⟨secret⟩ ⟨s.vault, s.around.draws⟩).1

end Bench

end RunParams
