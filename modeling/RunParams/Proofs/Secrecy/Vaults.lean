import RunParams.Proofs.Secrecy.Programs
import RunParams.Resolver

/-!
# What a vault shows of its secrets

Two vaults are alike if they begin their handles alike and hold the same handles (`Vault.Alike`).
Nothing that mints handles tells alike vaults apart, and the handles it returns are the same
whatever the secrets are (`Mint.fields_alike`, `CredentialSecret.mint_alike`): which handle is
drawn depends only on the ids and on the handles that are taken.

Of a credential, all that shows is its type and whether it has a one-time password
(`CredentialSecret.Alike`).
-/

namespace RunParams

namespace Entries

variable {α : Type}

/-- Whether a key is found depends on the keys alone. -/
theorem isSome_find (key : String) (entries : List (String × α)) :
    (find key entries).isSome = (entries.map (·.1)).contains key := by
  induction entries with
  | nil => rfl
  | cons e rest ih =>
    rw [find_cons, List.map_cons, List.contains_cons]
    by_cases h : e.1 = key
    · simp [h]
    · have h' : (key == e.1) = false := by simp [Ne.symm h]
      simp [h, h', ih]

/-- Where an entry is put depends on the keys alone. -/
theorem keys_insert_congr {key : String} {a b : α} {xs ys : List (String × α)}
    (h : xs.map (·.1) = ys.map (·.1)) :
    (insert key a xs).map (·.1) = (insert key b ys).map (·.1) := by
  induction xs generalizing ys with
  | nil =>
    cases ys with
    | nil => rfl
    | cons y ys => simp at h
  | cons x xs ih =>
    cases ys with
    | nil => simp at h
    | cons y ys =>
      simp only [List.map_cons, List.cons.injEq] at h
      obtain ⟨hkey, hrest⟩ := h
      simp only [insert, hkey]
      split
      · simp only [List.map_cons, ih hrest]
      · split <;> simp [hrest]

end Entries

/-- Vaults that begin their handles alike and hold the same handles. -/
structure Vault.Alike (v v' : Vault) : Prop where
  lead : v.lead = v'.lead
  handles : v.secrets.keys = v'.secrets.keys

namespace Vault.Alike

variable {v v' : Vault}

/-- Alike vaults take the same texts for handles. -/
theorem contains_eq (h : Vault.Alike v v') (handle : String) :
    v.contains handle = v'.contains handle := by
  unfold Vault.contains KeyMap.contains KeyMap.get?
  rw [Entries.isSome_find, Entries.isSome_find]
  exact congrArg (·.contains handle) h.handles

/-- Alike vaults have the same number of entries. -/
theorem size_eq (h : Vault.Alike v v') : v.size = v'.size := by
  have hlength := congrArg List.length h.handles
  simp only [KeyMap.keys, List.length_map] at hlength
  exact hlength

/-- Alike vaults stay alike when each keeps a secret of its own under one handle. -/
theorem keep (h : Vault.Alike v v') (handle : String) (secret secret' : Secret) :
    Vault.Alike (v.keep handle secret) (v'.keep handle secret') :=
  ⟨h.lead, Entries.keys_insert_congr h.handles⟩

/-- A vault is alike to itself. -/
theorem refl (v : Vault) : Vault.Alike v v := ⟨rfl, rfl⟩

end Vault.Alike

namespace Mint

/-- Mints with alike vaults and the same ids. -/
structure Alike (m m' : Mint) : Prop where
  vault : Vault.Alike m.vault m'.vault
  draws : m.draws = m'.draws

/-- Two ways to mint that return the same, from whatever alike mints, and leave alike ones. -/
def SameReturn {α : Type} (f f' : StateM Mint α) : Prop :=
  ∀ m m', Alike m m' → (f m).1 = (f' m').1 ∧ Alike (f m).2 (f' m').2

variable {α β : Type}

theorem SameReturn.pure (a : α) : SameReturn (Pure.pure a) (Pure.pure a) :=
  fun _ _ h => ⟨rfl, h⟩

theorem SameReturn.bind {f f' : StateM Mint α} {next next' : α → StateM Mint β}
    (h : SameReturn f f') (hn : ∀ a, SameReturn (next a) (next' a)) :
    SameReturn (f >>= next) (f' >>= next') := by
  intro m m' hm
  obtain ⟨hvalue, hstate⟩ := h m m' hm
  have hnext := hn (f m).1 (f m).2 (f' m').2 hstate
  rw [hvalue] at hnext
  show ((next (f m).1) (f m).2).1 = ((next' (f' m').1) (f' m').2).1 ∧ _
  rw [hvalue]
  refine ⟨hnext.1, ?_⟩
  show Alike ((next (f m).1) (f m).2).2 ((next' (f' m').1) (f' m').2).2
  rw [hvalue]
  exact hnext.2

/-- The handle that is drawn does not depend on the secrets in a vault. -/
theorem freshHandle_alike {v v' : Vault} (h : Vault.Alike v v') (field : Option String)
    (fuel : Nat) (d : Draws) : freshHandle v field fuel d = freshHandle v' field fuel d := by
  -- What is taken in one vault is taken in the other, so both draw again equally often.
  induction fuel generalizing d with
  | zero => simp only [freshHandle, h.lead]
  | succ fuel ih => simp only [freshHandle, h.lead, h.contains_eq, ih]

/-- Two secrets get the same fresh handle in alike vaults. -/
theorem fresh_alike (field : Option String) (secret secret' : Secret) :
    SameReturn (fresh field secret) (fresh field secret') := by
  intro m m' h
  have hd : freshHandle m.vault field m.vault.size m.draws =
      freshHandle m'.vault field m'.vault.size m'.draws := by
    rw [freshHandle_alike h.vault, h.vault.size_eq, h.draws]
  simp only [fresh, hd]
  exact ⟨trivial, h.vault.keep _ _ _, rfl⟩

/-- The seed of a one-time password does not show in its handle. -/
theorem totp_alike (seed seed' : String) : SameReturn (totp seed) (totp seed') := by
  refine (fresh_alike _ _ _).bind fun handle => ?_
  intro m m' h
  exact ⟨rfl, h.vault.keep _ _ _, h.draws⟩

/-- The secrets of fields do not show in their handles. -/
theorem fields_alike {fs fs' : List (String × String)} (h : fs.map (·.1) = fs'.map (·.1)) :
    SameReturn (fields fs) (fields fs') := by
  induction fs generalizing fs' with
  | nil =>
    cases fs' with
    | nil => exact .pure _
    | cons f fs' => simp at h
  | cons f fs ih =>
    cases fs' with
    | nil => simp at h
    | cons f' fs' =>
      simp only [List.map_cons, List.cons.injEq] at h
      obtain ⟨hname, hrest⟩ := h
      obtain ⟨name, secret⟩ := f
      obtain ⟨name', secret'⟩ := f'
      simp only at hname
      subst hname
      refine (fresh_alike (some name) ⟨secret⟩ ⟨secret'⟩).bind fun handle => ?_
      exact (ih hrest).bind fun handles => .pure _

end Mint

/-- Secrets of credentials of one type, with or without a one-time password. -/
inductive CredentialSecret.Alike : CredentialSecret → CredentialSecret → Prop
  | password {s s' : PasswordSecret} (seed : s.seed?.isSome = s'.seed?.isSome) :
    Alike (.password s) (.password s')
  | creditCard {s s' : CreditCardSecret} : Alike (.creditCard s) (.creditCard s')

/-- The handles for a credential do not depend on its secret. -/
theorem CredentialSecret.mint_alike {s s' : CredentialSecret} (h : CredentialSecret.Alike s s') :
    Mint.SameReturn s.mint s'.mint := by
  cases h with
  | creditCard => exact Mint.fields_alike rfl
  | @password s s' seed =>
    have hfields : Mint.SameReturn
        (Mint.fields [("username", s.username), ("password", s.password)])
        (Mint.fields [("username", s'.username), ("password", s'.password)]) :=
      Mint.fields_alike rfl
    refine hfields.bind fun handles => ?_
    -- There is a third handle in both or in neither.
    cases hs : s.seed? with
    | none =>
      cases hs' : s'.seed? with
      | none => exact .pure _
      | some seed' => simp [hs, hs'] at seed
    | some seed₁ =>
      cases hs' : s'.seed? with
      | none => simp [hs, hs'] at seed
      | some seed₂ => exact (Mint.totp_alike seed₁ seed₂).bind fun handle => .pure _

end RunParams
