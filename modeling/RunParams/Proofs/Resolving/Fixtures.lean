import RunParams.Manifest
import RunParams.Proofs.KeyMaps
import RunParams.Proofs.Latency.Paces
import RunParams.Proofs.Resolving.Gains

/-!
# What fixtures are resolved into

The rows of a store in memory and the two kinds of secrets stand in tables of their own, and a
fixture writes to two of them. If several fixtures have one id, the row is that of the last one, and
so is the secret to which the row leads, whatever older secrets the other table still has under the
id (`Memory.holds_foldl_addTo`). An id without fixture has no row, and every row belongs to the
organization of the manifest. Secrets are not touched by fixtures, and fixtures not by secrets
(`Manifest.seed_eq`).

A store that takes no time answers at once, whatever the limit is (`Surroundings.fetch_instant`), so
what resolving a credential comes to is read from the tables (`Manifest.resolves_last_fixture`).
-/

namespace RunParams

namespace Fixture

/-- The id of the credential. -/
def id : Fixture → String
  | password id _ | creditCard id _ => id

/-- The secret of the credential. -/
def secret : Fixture → CredentialSecret
  | password _ secret => .password secret
  | creditCard _ secret => .creditCard secret

/-- The type of the credential. -/
def type : Fixture → CredentialType
  | password _ _ => .password
  | creditCard _ _ => .creditCard

/-- The row of the credential for an organization. -/
def row (organization : String) (f : Fixture) : Credential := ⟨f.id, organization, f.id, f.type⟩

/-- The row belongs to the organization. -/
theorem organization_row (organization : String) (f : Fixture) :
    (f.row organization).organization = organization := rfl

end Fixture

namespace Memory

variable {m : Memory} {f g : Fixture} {id organization : String} {fixtures : List Fixture}

/-! ## The tables -/

/-- The row of a fixture is added. -/
theorem credentials_addTo (organization : String) (m : Memory) (f : Fixture) :
    (f.addTo organization m).credentials = m.credentials.insert f.id (f.row organization) := by
  cases f <;> rfl

/-- The tables lead from the id of a fixture to its row, and from there to its secret. -/
structure Holds (m : Memory) (organization : String) (f : Fixture) : Prop where
  row : m.credentials.get? f.id = some (f.row organization)
  password : ∀ id secret, f = .password id secret → m.passwords.get? id = some secret
  creditCard : ∀ id secret, f = .creditCard id secret → m.creditCards.get? id = some secret

/-- A fixture is held when it has been added. -/
theorem holds_addTo (organization : String) (m : Memory) (f : Fixture) :
    (f.addTo organization m).Holds organization f := by
  refine ⟨?_, ?_, ?_⟩
  · rw [credentials_addTo, KeyMap.get?_insert, if_pos rfl]
  · rintro id secret rfl
    exact (KeyMap.get?_insert ..).trans (if_pos rfl)
  · rintro id secret rfl
    exact (KeyMap.get?_insert ..).trans (if_pos rfl)

/-- A fixture is still held when one with another id is added. -/
theorem Holds.addTo (h : m.Holds organization f) (hother : g.id ≠ f.id) (owner : String) :
    (g.addTo owner m).Holds organization f := by
  refine ⟨?_, ?_, ?_⟩
  -- Its row is under another id, and its secret is so too or in the other table.
  · rw [credentials_addTo, KeyMap.get?_insert, if_neg (Ne.symm hother)]
    exact h.row
  · -- A password table only changes with a password of the other id, and so with the other table.
    rintro id secret rfl
    cases g with
    | password other _ =>
      exact (KeyMap.get?_insert ..).trans ((if_neg (Ne.symm hother)).trans (h.password _ _ rfl))
    | creditCard _ _ => exact h.password _ _ rfl
  · rintro id secret rfl
    cases g with
    | password _ _ => exact h.creditCard _ _ rfl
    | creditCard other _ =>
      exact (KeyMap.get?_insert ..).trans ((if_neg (Ne.symm hother)).trans (h.creditCard _ _ rfl))

/-- A fixture is held when some have been added of which it is the last one with its id. -/
theorem holds_foldl_addTo (organization : String) (m : Memory) (before : List Fixture)
    {after : List Fixture} (hafter : ∀ g ∈ after, g.id ≠ f.id) :
    ((before ++ f :: after).foldl (Fixture.addTo organization) m).Holds organization f := by
  rw [List.foldl_append, List.foldl_cons]
  generalize before.foldl (Fixture.addTo organization) m = start
  refine List.foldlRecOn (motive := fun m : Memory => m.Holds organization f) after _
    (holds_addTo organization start f) fun m h g hg => ?_
  exact h.addTo (hafter g hg) organization

/-- An id that no added fixture has leads to no row if it did not before. -/
theorem credentials_foldl_addTo_eq_none (hnew : ∀ g ∈ fixtures, g.id ≠ id)
    (h : m.credentials.get? id = none) :
    (fixtures.foldl (Fixture.addTo organization) m).credentials.get? id = none := by
  refine List.foldlRecOn (motive := fun m : Memory => m.credentials.get? id = none) fixtures _ h
    fun m h g hg => ?_
  rw [credentials_addTo, KeyMap.get?_insert, if_neg (Ne.symm (hnew g hg)), h]

/-- All rows belong to an organization. -/
def OwnedBy (m : Memory) (organization : String) : Prop :=
  ∀ id row, m.credentials.get? id = some row → row.organization = organization

/-- The rows of added fixtures belong to the organization for which they are added. -/
theorem OwnedBy.foldl_addTo (h : m.OwnedBy organization) :
    (fixtures.foldl (Fixture.addTo organization) m).OwnedBy organization := by
  refine List.foldlRecOn (motive := fun m : Memory => m.OwnedBy organization) fixtures _ h
    fun m h g _ id row hrow => ?_
  rw [credentials_addTo, KeyMap.get?_insert] at hrow
  -- A row is that of the fixture added last under its id, or an older one.
  by_cases hid : id = g.id
  · rw [if_pos hid] at hrow
    cases hrow
    rfl
  · rw [if_neg hid] at hrow
    exact h id row hrow

/-- Fixtures take no time. -/
theorem Instant.foldl_addTo (h : m.Instant) (organization : String) (fixtures : List Fixture) :
    (fixtures.foldl (Fixture.addTo organization) m).Instant := by
  refine List.foldlRecOn (motive := Instant) fixtures _ h fun m h g _ q => ?_
  have hsame : (g.addTo organization m).latency q = m.latency q := by cases g <;> cases q <;> rfl
  rw [hsame, h q]

/-- Fixtures are no external secrets. -/
theorem secrets_foldl_addTo :
    (fixtures.foldl (Fixture.addTo organization) m).secrets = m.secrets := by
  refine List.foldlRecOn (motive := fun n : Memory => n.secrets = m.secrets) fixtures _ rfl
    fun m h g _ => ?_
  cases g <;> exact h

/-- Adding secrets adds to their table only. -/
theorem foldl_addSecret (m : Memory) (secrets : KeyMap String) :
    secrets.entries.foldl (fun memory e => memory.addSecret e.1 e.2) m =
      { m with secrets := m.secrets.union secrets } := by
  unfold KeyMap.union
  generalize secrets.entries = entries
  induction entries generalizing m with
  | nil => rfl
  | cons e rest ih => exact ih (m.addSecret e.1 e.2)

end Memory

/-- The tables of a manifest are those of its fixtures and that of its secrets. -/
theorem Manifest.seed_eq (m : Manifest) :
    m.seed = { m.fixtures.foldl (Fixture.addTo m.organization.id) .empty with
      secrets := m.secrets } := by
  -- Fixtures add no secrets, so the union is with nothing.
  have hunion : (m.fixtures.foldl (Fixture.addTo m.organization.id) Memory.empty).secrets.union
      m.secrets = m.secrets := by
    rw [Memory.secrets_foldl_addTo]
    refine KeyMap.ext_get? fun key => ?_
    rw [KeyMap.get?_union]
    exact Option.or_none
  unfold seed
  rw [Memory.foldl_addSecret, hunion]

/-! ## A store that takes no time -/

namespace Surroundings

variable {m : Memory} {s : Surroundings} {f : Fixture} {id organization : String}

/-- The row of a credential is there at once, and then it is used. -/
theorem fetchCredential_instant (hbackend : s.backend = m.backend) (hinstant : m.Instant)
    (limit : Option Duration) (id organization : String) :
    ∃ t : Surroundings, t.backend = m.backend ∧ t.draws = s.draws ∧
      fetchCredential limit id organization s =
        useRow limit id organization (.ok (m.credential? id organization)) t := by
  have hfetch := fetch_instant (s := s.logged [.fetchingCredential id organization]) hbackend
    hinstant limit id (.credential id organization)
  refine ⟨{ s.logged [.fetchingCredential id organization] with
    asked := s.asked ++ [.credential id organization] }, hbackend, rfl, ?_⟩
  rw [fetchCredential_eq]
  exact congrArg (fun p => p.attempt.bind (useRow limit id organization)) hfetch

/-- Without a row that belongs to the organization no credential is found. -/
theorem fetchCredential_none (hbackend : s.backend = m.backend) (hinstant : m.Instant)
    (hrow : m.credential? id organization = none) (limit : Option Duration) :
    ∃ t : Surroundings, t.draws = s.draws ∧
      fetchCredential limit id organization s = .ended t (.error (.credentialNotFound id)) := by
  obtain ⟨t, -, hdraws, hfetch⟩ := fetchCredential_instant hbackend hinstant limit id organization
  refine ⟨t, hdraws, hfetch.trans ?_⟩
  rw [hrow]
  rfl

/-- The secret of a fixture that is held is fetched for its organization. -/
theorem fetchCredential_held (hbackend : s.backend = m.backend) (hinstant : m.Instant)
    (hheld : m.Holds organization f) (limit : Option Duration) :
    ∃ t : Surroundings, t.draws = s.draws ∧
      fetchCredential limit f.id organization s = .ended t (.ok f.secret) := by
  have hrow : m.credential? f.id organization = some (f.row organization) := by
    unfold Memory.credential?
    rw [hheld.row, Option.filter_some]
    exact if_pos (decide_eq_true rfl)
  obtain ⟨t, hbackend', hdraws, hfetch⟩ :=
    fetchCredential_instant hbackend hinstant limit f.id organization
  rw [hrow] at hfetch
  -- Both kinds of fixture go alike: the row refers to the secret, and the secret is at hand.
  cases f with
  | password id secret =>
    have hsecret := fetch_instant hbackend' hinstant limit id (.password id)
    rw [show m.answer (.password id) = some secret from hheld.password id secret rfl] at hsecret
    refine ⟨{ t with asked := t.asked ++ [.password id] }, hdraws, hfetch.trans ?_⟩
    rw [useRow, if_neg (not_not_intro (Fixture.organization_row ..))]
    exact congrArg (Paused.bind _) hsecret
  | creditCard id secret =>
    have hsecret := fetch_instant hbackend' hinstant limit id (.creditCard id)
    rw [show m.answer (.creditCard id) = some secret from hheld.creditCard id secret rfl] at hsecret
    refine ⟨{ t with asked := t.asked ++ [.creditCard id] }, hdraws, hfetch.trans ?_⟩
    rw [useRow, if_neg (not_not_intro (Fixture.organization_row ..))]
    exact congrArg (Paused.bind _) hsecret

end Surroundings

/-! ## The fixtures of a manifest -/

namespace Manifest

variable {m : Manifest} {f : Fixture} {id organization : String}

/-- Stores with fixtures and secrets take no time. -/
theorem instant_seed (m : Manifest) : m.seed.Instant := by
  have hempty : Memory.empty.Instant := by
    intro q
    cases q <;> rfl
  intro q
  rw [seed_eq]
  -- The secrets, which are added last, do not show in the time that a query takes.
  have hfixtures := hempty.foldl_addTo m.organization.id m.fixtures q
  cases q <;> exact hfixtures

/-- The last fixture of its id is held. -/
theorem seed_holds {before after : List Fixture} (h : m.fixtures = before ++ f :: after)
    (hafter : ∀ g ∈ after, g.id ≠ f.id) : m.seed.Holds m.organization.id f := by
  have hheld := Memory.holds_foldl_addTo m.organization.id .empty before hafter
  rw [seed_eq, h]
  exact ⟨hheld.row, hheld.password, hheld.creditCard⟩

/-- An id that no fixture has leads to no row. -/
theorem seed_credential?_eq_none (h : ∀ f ∈ m.fixtures, f.id ≠ id) (organization : String) :
    m.seed.credential? id organization = none := by
  have hnone : m.seed.credentials.get? id = none := by
    rw [seed_eq]
    exact Memory.credentials_foldl_addTo_eq_none h rfl
  unfold Memory.credential?
  rw [hnone]
  rfl

/-- Another organization gets no row. -/
theorem seed_credential?_foreign (h : organization ≠ m.organization.id) (id : String) :
    m.seed.credential? id organization = none := by
  have howned : m.seed.OwnedBy m.organization.id := by
    have hempty : Memory.empty.OwnedBy m.organization.id := nofun
    rw [seed_eq]
    exact hempty.foldl_addTo
  unfold Memory.credential?
  -- A row is found only for its own organization, and all rows are of another one.
  cases hrow : m.seed.credentials.get? id with
  | none => rfl
  | some row =>
    rw [Option.filter_some]
    refine if_neg fun hmine => h ?_
    rw [← of_decide_eq_true hmine, howned id row hrow]

end Manifest

namespace Bench

variable {b : Bench} {id organization : String} {limit : Option Duration}

/-- What comes of resolving a credential at once. Either its secret is put into the vault, so that
the vault gains just the parts of the secret unless the ids are in use that are drawn for them, or
there is an error and the vault and the draws are what they were. -/
def Settles (limit : Option Duration) (id organization : String) (b : Bench) :
    Except BindingError CredentialSecret → Prop
  | .ok secret => let minted := secret.mint ⟨b.vault, b.around.draws⟩
    ∃ t, resolveCredential limit id organization b = .ended t (.ok (handlesValue minted.1)) ∧
      t.vault = minted.2.vault ∧ t.around.draws = minted.2.draws ∧
      ((∀ drawn ∈ b.around.draws.since minted.2.draws, b.vault.Unused drawn) →
        ∃ kept, secret.ResolvesTo b.vault t.vault (handlesValue minted.1) kept)
  | .error e => ∃ t, resolveCredential limit id organization b = .ended t (.error e) ∧
      t.vault = b.vault ∧ t.around.draws = b.around.draws

/-- A credential is resolved at once if its secret is fetched at once. -/
theorem settles_of_fetch {t : Surroundings} {r : Except BindingError CredentialSecret}
    (hdraws : t.draws = b.around.draws)
    (hfetch : Surroundings.fetchCredential limit id organization b.around = .ended t r) :
    Settles limit id organization b r := by
  have houtside : outside (Surroundings.fetchCredential limit id organization) b =
      .ended ⟨b.vault, t⟩ r :=
    congrArg (Paused.within Bench.around (fun around b => { b with around }) b) hfetch
  have hresolve : resolveCredential limit id organization b =
      (Paused.ended ⟨b.vault, t⟩ r).bind fun secret =>
        mint secret.mint >>= fun handles => pure (handlesValue handles) :=
    congrArg (Paused.bind _) houtside
  obtain ⟨backend, asked, draws, clock, log⟩ := t
  cases hdraws
  -- A failure leaves the vault, and a success mints the handles of the secret.
  cases r with
  | error e => exact ⟨_, hresolve, rfl, rfl⟩
  | ok secret =>
    have hresolves := secret.resolvesTo_mint (m := ⟨b.vault, b.around.draws⟩)
    exact ⟨_, hresolve, rfl, rfl, fun hunused => ⟨_, hresolves hunused⟩⟩

end Bench

/-- With the stores of a manifest, the id of a fixture is resolved for the organization of the
manifest into the secret of the last fixture that has the id. An id that no fixture has is not
found, and neither is any id for another organization. A key of an external secret is looked up in
the secrets of the manifest. -/
theorem Manifest.settles_last_fixture (m : Manifest) (limit : Option Duration) (vault : Vault)
    (s : Surroundings) :
    let b : Bench := ⟨vault, { s with backend := m.seed.backend }⟩
    (∀ before f after, m.fixtures = before ++ f :: after → (∀ g ∈ after, g.id ≠ f.id) →
      b.Settles limit f.id m.organization.id (.ok f.secret)) ∧
    (∀ id, (∀ f ∈ m.fixtures, f.id ≠ id) →
      b.Settles limit id m.organization.id (.error (.credentialNotFound id))) ∧
    (∀ id organization, organization ≠ m.organization.id →
      b.Settles limit id organization (.error (.credentialNotFound id))) ∧
    ∀ key, ∃ t,
      Surroundings.fetchSecret limit key b.around = .ended t (.ok (m.secrets.get? key)) := by
  intro b
  have hbackend : b.around.backend = m.seed.backend := rfl
  have hinstant := m.instant_seed
  -- In turn: the last fixture of an id, an id without fixture, another organization, and the
  -- secrets.
  refine ⟨fun before f after hfixtures hafter => ?_, fun id hnew => ?_,
    fun id organization hforeign => ?_, fun key => ?_⟩
  · have hheld := seed_holds hfixtures hafter
    obtain ⟨t, hdraws, hfetch⟩ := Surroundings.fetchCredential_held hbackend hinstant hheld limit
    exact Bench.settles_of_fetch hdraws hfetch
  · have hrow := seed_credential?_eq_none hnew m.organization.id
    obtain ⟨t, hdraws, hfetch⟩ := Surroundings.fetchCredential_none hbackend hinstant hrow limit
    exact Bench.settles_of_fetch hdraws hfetch
  · have hrow := seed_credential?_foreign hforeign id
    obtain ⟨t, hdraws, hfetch⟩ := Surroundings.fetchCredential_none hbackend hinstant hrow limit
    exact Bench.settles_of_fetch hdraws hfetch
  · have hfetch := Surroundings.fetch_instant hbackend hinstant limit key (.secret key)
    have hanswer : m.seed.answer (.secret key) = m.secrets.get? key := by
      rw [seed_eq]
      rfl
    rw [hanswer] at hfetch
    exact ⟨_, hfetch⟩

/-- A password fixture is replaced by a card and then by a password again. -/
theorem Manifest.settles_last_fixture_replaced :
    let card : CreditCardSecret := ⟨"4111", "123", "01", "2030", "visa", "A"⟩
    let m : Manifest := ⟨none, ⟨"o_1", none⟩, .empty, ∅,
      [.password "c" ⟨"u", "old", none⟩, .creditCard "c" card, .creditCard "d" card,
        .password "c" ⟨"u", "new", some "seed"⟩], ∅⟩
    let b : Bench := ⟨.ofLead "secret_", ⟨m.seed.backend, [], default, 0, []⟩⟩
    b.Settles (some (.millis 0)) "c" "o_1" (.ok (.password ⟨"u", "new", some "seed"⟩)) ∧
      b.Settles (some (.millis 0)) "d" "o_1" (.ok (.creditCard card)) ∧
      b.Settles (some (.millis 0)) "e" "o_1" (.error (.credentialNotFound "e")) ∧
      b.Settles (some (.millis 0)) "c" "o_2" (.error (.credentialNotFound "c")) := by
  intro card m b
  obtain ⟨hlast, hnone, hforeign, -⟩ := settles_last_fixture m (some (.millis 0)) b.vault b.around
  refine ⟨?_, ?_, hnone "e" (by decide), hforeign "c" "o_2" (by decide)⟩
  · exact hlast [.password "c" ⟨"u", "old", none⟩, .creditCard "c" card, .creditCard "d" card] _ []
      rfl nofun
  · exact hlast [.password "c" ⟨"u", "old", none⟩, .creditCard "c" card] _
      [.password "c" ⟨"u", "new", some "seed"⟩] rfl (by decide)

end RunParams
