import RunParams.Proofs.Resolving.Answers
import RunParams.Proofs.Resolving.Gains

/-!
# Resolving credentials and external secrets

A credential is resolved in full or not at all. The stores are asked at most twice, and only when
both responses lead to a secret something is put into the vault: what the secret is made up of, each
part under a handle of its own. The value is the object of these handles
(`Bench.resolveCredential_whole`). An external secret takes one response
(`Bench.of_resolveSecret`). Meanwhile others may draw ids and ask the stores too, as long as
nobody else touches the vault.
-/

namespace RunParams.Bench

variable {limit : Option Duration} {id organization : String} {b t : Bench} {took : Takings}

/-- Work on the surroundings takes what it does there and leaves the vault alone. -/
theorem of_outside {α : Type} {p : Program Surroundings BindingError α}
    {r : Except BindingError α}
    (h : (outside p b).Ends (Surroundings.meter.on around) SameStores b took t r) :
    (p b.around).Ends Surroundings.meter Surroundings.SameBackend b.around took t.around r ∧
      t.vault = b.vault := by
  obtain ⟨s, whole, hinner, hvault, rfl⟩ := h.of_within Surroundings.meter
    Surroundings.SameBackend (fun c : Bench => c.vault = b.vault) (fun _ _ => rfl)
    (fun _ _ _ hkept => hkept.2) (fun _ _ _ hc hkept => hkept.1.trans hc) rfl
  exact ⟨hinner, hvault⟩

/-- Putting secrets into the vault takes the ids that are drawn for them. -/
theorem of_mint {α β : Type} {work : StateM Mint α} {value : α → β} {r : Except BindingError β}
    (h : ((mint work >>= fun a => pure (value a) : Program Bench BindingError β) b).Ends
      (Surroundings.meter.on around) SameStores b took t r) :
    took.ids = b.around.draws.since (work ⟨b.vault, b.around.draws⟩).2.draws ∧ took.answers = [] ∧
      r = .ok (value (work ⟨b.vault, b.around.draws⟩).1) ∧
      t.vault = (work ⟨b.vault, b.around.draws⟩).2.vault := by
  obtain ⟨rfl, rfl, rfl⟩ := h.of_ended
  refine ⟨rfl, ?_, rfl, rfl⟩
  -- Nothing was asked while the handles were made.
  show b.around.backend.answers b.around.asked (b.around.asked.drop b.around.asked.length) = []
  rw [List.drop_length]
  rfl

/-- Resolving a credential comes to what the two responses of the stores do, and if they come to a
secret, it is put into the vault. -/
theorem of_resolveCredential {r : Except BindingError Json}
    (h : (resolveCredential limit id organization b).Ends (Surroundings.meter.on around) SameStores
      b took t r) :
    let row := b.around.backend b.around.asked (.credential id organization)
    ∃ asked,
      ((∀ q, ¬ row.Refers limit organization q) → took.answers = [⟨_, row⟩]) ∧
      (∀ q, row.Refers limit organization q →
        took.answers = [⟨_, row⟩, ⟨q, b.around.backend asked q⟩]) ∧
      match CredentialSecret.outcome limit id organization row (b.around.backend asked) with
      | .error e => r = .error e ∧ t.vault = b.vault ∧ took.ids = []
      | .ok secret => ∃ draws, took.ids = draws.since (secret.mint ⟨b.vault, draws⟩).2.draws ∧
          r = .ok (handlesValue (secret.mint ⟨b.vault, draws⟩).1) ∧
          t.vault = (secret.mint ⟨b.vault, draws⟩).2.vault := by
  intro row
  have hfetch := repeats_outside (Surroundings.repeats_fetchCredential limit id organization)
  have hmint : ∀ secret : CredentialSecret, Repeats
      (mint secret.mint >>= fun handles => pure (handlesValue handles)) :=
    fun secret => (repeats_mint secret.repeats_mint).bind fun _ => Program.repeats_pure _
  -- The secret was fetched and its handles were made, or the fetch has failed and no handle was
  -- made.
  rcases Paused.Ends.of_bind (hfetch.keeps b) (fun secret => (hmint secret).keeps) h with
    ⟨u, secret, fetching, minting, rfl, hfirst, hrest⟩ | ⟨e, rfl, hfirst⟩
  · obtain ⟨hinner, hvault⟩ := of_outside hfirst
    obtain ⟨asked, houtcome, hids, hone, hboth⟩ := Surroundings.of_fetchCredential hinner
    obtain ⟨hdrawn, hanswers, hr, hkept⟩ := of_mint hrest
    rw [hvault] at hdrawn hr hkept
    have hids' : (fetching ++ minting).ids = fetching.ids ++ minting.ids := rfl
    have hanswers' : (fetching ++ minting).answers = fetching.answers ++ minting.answers := rfl
    rw [hids, List.nil_append] at hids'
    rw [hanswers, List.append_nil] at hanswers'
    refine ⟨asked, fun h => hanswers'.trans (hone h), fun q h => hanswers'.trans (hboth q h), ?_⟩
    rw [show CredentialSecret.outcome _ _ _ row _ = .ok secret from houtcome.symm]
    exact ⟨u.around.draws, hids'.trans hdrawn, hr, hkept⟩
  · obtain ⟨hinner, hvault⟩ := of_outside hfirst
    obtain ⟨asked, houtcome, hids, hone, hboth⟩ := Surroundings.of_fetchCredential hinner
    refine ⟨asked, hone, hboth, ?_⟩
    rw [show CredentialSecret.outcome _ _ _ row _ = .error e from houtcome.symm]
    exact ⟨rfl, hvault, hids⟩

/-- Resolving an external secret comes to what the response of the store does, and if that brings
one, it is put into the vault as a whole. -/
theorem of_resolveSecret {key : String} {r : Except BindingError (Option String)}
    (h : (resolveSecret limit key b).Ends (Surroundings.meter.on around) SameStores b took t r) :
    match (b.around.backend b.around.asked (.secret key)).outcome limit
      (Surroundings.describe key (.secret key)) with
    | .error e => r = .error e ∧ t.vault = b.vault ∧ took.ids = []
    | .ok found => match (found : Option String) with
      | none => r = .ok none ∧ t.vault = b.vault ∧ took.ids = []
      | some secret => ∃ draws,
          took.ids = draws.since (Mint.whole secret ⟨b.vault, draws⟩).2.draws ∧
          r = .ok (some (Mint.whole secret ⟨b.vault, draws⟩).1) ∧
          t.vault = (Mint.whole secret ⟨b.vault, draws⟩).2.vault := by
  have hfetch := repeats_outside (Surroundings.repeats_fetch limit key (.secret key))
  have hmint := fun secret => (repeats_mint (Mint.repeats_fresh none ⟨secret⟩)).bind fun handle =>
    Program.repeats_pure (some handle)
  -- The store may have no such secret, and then nothing is minted.
  rcases Paused.Ends.of_bind (hfetch.keeps b) (fun found => by
      cases found with
      | none => exact (Program.repeats_pure none : Repeats _).keeps
      | some secret => exact (hmint secret).keeps) h with
    ⟨u, found, fetching, minting, rfl, hfirst, hrest⟩ | ⟨e, rfl, hfirst⟩
  · obtain ⟨hinner, hvault⟩ := of_outside hfirst
    obtain ⟨rfl, houtcome, -⟩ := Surroundings.of_fetch hinner
    rw [← houtcome]
    cases found with
    | none =>
      obtain ⟨hnothing, rfl, rfl⟩ := hrest.of_ended
      rw [Meter.taken_self] at hnothing
      rw [hnothing]
      exact ⟨rfl, hvault, rfl⟩
    | some secret =>
      obtain ⟨hdrawn, -, hr, hkept⟩ := of_mint hrest
      rw [hvault] at hdrawn hr hkept
      exact ⟨u.around.draws, hdrawn, hr, hkept⟩
  · -- The fetch has failed.
    obtain ⟨hinner, hvault⟩ := of_outside hfirst
    obtain ⟨rfl, houtcome, -⟩ := Surroundings.of_fetch hinner
    rw [← houtcome]
    exact ⟨rfl, hvault, rfl⟩

end RunParams.Bench
