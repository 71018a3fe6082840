import RunParams.Proofs.Context.Keeping
import RunParams.Proofs.Isolation.Handles

/-!
# Ids and the handles that are made from them

While the declarations of a run are bound, ids are drawn and handles are made from them. Ids may be
drawn by others meanwhile, from the same stream. `Mint.Fills` says what a stretch of the work adds
to a vault: every new handle is made from an id that was drawn in that very stretch
(`Draws.since`). So the handles of a run are made from ids that the run has drawn itself.

`Desk.keepsTo_bindAll` says that the binding of declarations does nothing else to a vault, in each
of its stretches, whatever others do at its waits.
-/

namespace RunParams

namespace Draws

variable {d d' d'' : Draws} {id : Uuid}

/-- A stream from which more ids have been drawn. -/
structure Later (d d' : Draws) : Prop where
  stream : d'.stream = d.stream
  next : d.next ≤ d'.next

/-- Nothing is drawn in no time. -/
theorem Later.refl (d : Draws) : d.Later d := ⟨rfl, Nat.le_refl _⟩

/-- More and more ids are drawn. -/
theorem Later.trans (h : d.Later d') (h' : d'.Later d'') : d.Later d'' :=
  ⟨h'.stream.trans h.stream, Nat.le_trans h.next h'.next⟩

/-- The ids that have been drawn in between. -/
def since (d d' : Draws) : List Uuid :=
  (List.range' d.next (d'.next - d.next)).map d.stream

/-- What has been drawn in between stands at the places in between. -/
theorem mem_since : id ∈ d.since d' ↔ ∃ i, d.next ≤ i ∧ i < d'.next ∧ d.stream i = id := by
  unfold since
  rw [List.mem_map]
  constructor
  · rintro ⟨i, hi, rfl⟩
    rw [List.mem_range'_1] at hi
    exact ⟨i, hi.1, by omega, rfl⟩
  · rintro ⟨i, hle, hlt, rfl⟩
    exact ⟨i, List.mem_range'_1.mpr (by omega), rfl⟩

/-- What has been drawn up to a moment has been drawn up to a later one. -/
theorem since_subset_left (h' : d'.Later d'') : d.since d' ⊆ d.since d'' := by
  intro id hid
  obtain ⟨i, hle, hlt, hi⟩ := mem_since.mp hid
  exact mem_since.mpr ⟨i, hle, Nat.lt_of_lt_of_le hlt h'.next, hi⟩

/-- What has been drawn from a moment on has been drawn from an earlier one on. -/
theorem since_subset_right (h : d.Later d') : d'.since d'' ⊆ d.since d'' := by
  intro id hid
  obtain ⟨i, hle, hlt, hi⟩ := mem_since.mp hid
  exact mem_since.mpr ⟨i, Nat.le_trans h.next hle, hlt, h.stream ▸ hi⟩

/-- What is drawn up to a later moment is drawn in two parts. -/
theorem since_append (h : d.Later d') (h' : d'.Later d'') :
    d.since d'' = d.since d' ++ d'.since d'' := by
  have hplaces : d.next + (d'.next - d.next) = d'.next := Nat.add_sub_cancel' h.next
  have hcount : d''.next - d.next = (d'.next - d.next) + (d''.next - d'.next) := by
    have hle := h.next
    have hle' := h'.next
    omega
  unfold since
  rw [h.stream, hcount, ← List.range'_append_1, hplaces, List.map_append]

/-- An id that is drawn is the next one. -/
theorem since_one (d : Draws) : d.since d.draw.2 = [d.draw.1] := by
  show (List.range' d.next (d.next + 1 - d.next)).map d.stream = [d.stream d.next]
  rw [Nat.add_sub_cancel_left]
  rfl

/-- The first of the ids that are drawn is the next one. -/
theorem since_draw (h : d.draw.2.Later d') : d.since d' = d.draw.1 :: d.draw.2.since d' := by
  have hfirst : d.Later d.draw.2 := ⟨rfl, Nat.le_succ d.next⟩
  rw [since_append hfirst h, since_one, List.singleton_append]

end Draws

namespace Mint

variable {m m' m'' : Mint}

/-- What minting does: ids are drawn, and every handle that is new in the vault is made from one of
them. -/
structure Fills (m m' : Mint) : Prop where
  later : m.draws.Later m'.draws
  lead : m'.vault.lead = m.vault.lead
  minted : ∀ ids, m.vault.Minted ids → m'.vault.Minted (ids ++ m.draws.since m'.draws)

/-- Nothing is minted in no time. -/
theorem Fills.refl (m : Mint) : m.Fills m :=
  ⟨.refl _, rfl, fun ids h => h.mono (List.subset_append_left ids _)⟩

/-- What is minted adds up. -/
theorem Fills.trans (h : m.Fills m') (h' : m'.Fills m'') : m.Fills m'' := by
  refine ⟨h.later.trans h'.later, h'.lead.trans h.lead, fun ids hids => ?_⟩
  refine (h'.minted _ (h.minted ids hids)).mono fun id hid => ?_
  rcases List.mem_append.mp hid with hearlier | hlast
  · rcases List.mem_append.mp hearlier with hbefore | hfirst
    · exact List.mem_append_left _ hbefore
    · exact List.mem_append_right ids (Draws.since_subset_left h'.later hfirst)
  · exact List.mem_append_right ids (Draws.since_subset_right h.later hlast)

/-- Nothing is put into the vault when only ids are drawn. -/
theorem Fills.of_vault (hvault : m'.vault = m.vault) (hlater : m.draws.Later m'.draws) :
    m.Fills m' := by
  refine ⟨hlater, congrArg Vault.lead hvault, fun ids hids => ?_⟩
  rw [hvault]
  exact hids.mono (List.subset_append_left ids _)

/-- A fresh handle is made from an id that is drawn for it. -/
theorem freshHandle_spec (v : Vault) (field : Option String) (fuel : Nat) (d : Draws) :
    d.Later (freshHandle v field fuel d).2 ∧
      ∃ id ∈ d.since (freshHandle v field fuel d).2,
        Vault.MadeFrom v.lead id (freshHandle v field fuel d).1 := by
  have hone : ∀ d : Draws, d.Later d.draw.2 ∧ ∃ id ∈ d.since d.draw.2,
      Vault.MadeFrom v.lead id (Vault.handle v.lead d.draw.1 field) := by
    intro d
    refine ⟨⟨rfl, Nat.le_succ _⟩, d.draw.1, ?_, Vault.madeFrom_handle _ _ _⟩
    exact Draws.mem_since.mpr ⟨d.next, Nat.le_refl _, Nat.lt_succ_self _, rfl⟩
  -- With no fuel left the last id drawn is taken as it comes. Before that, an id is passed over as
  -- long as its handle is taken.
  induction fuel generalizing d with
  | zero => exact hone d
  | succ fuel ih =>
    unfold freshHandle
    dsimp only
    by_cases htaken : v.contains (Vault.handle v.lead d.draw.1 field) = true
    · -- The handle is taken, so the next ids have their turn.
      rw [if_pos htaken]
      obtain ⟨hlater, id, hid, hmade⟩ := ih d.draw.2
      have hfirst := (hone d).1
      exact ⟨hfirst.trans hlater, id, Draws.since_subset_right hfirst hid, hmade⟩
    · rw [if_neg htaken]
      exact hone d

/-- A secret is kept under a handle that is made from an id drawn for it. -/
theorem fresh_fills (field : Option String) (secret : Secret) (m : Mint) :
    m.Fills (fresh field secret m).2 ∧
      (fresh field secret m).2.vault.contains (fresh field secret m).1 = true := by
  obtain ⟨hlater, id, hid, hmade⟩ := freshHandle_spec m.vault field m.vault.size m.draws
  refine ⟨⟨hlater, rfl, fun ids hids => ?_⟩, ?_⟩
  · refine (hids.mono (List.subset_append_left ids _)).keep ?_ hmade secret
    exact List.mem_append_right ids hid
  · exact Vault.contains_keep m.vault _ secret

/-- The seed of a one-time password is kept under a handle that is made from the id of the other
one. -/
theorem totp_fills (seed : String) (m : Mint) : m.Fills (totp seed m).2 := by
  obtain ⟨hfills, hcontains⟩ := fresh_fills (some "totp") ⟨Vault.totpLabel⟩ m
  refine ⟨hfills.later, hfills.lead, fun ids hids => ?_⟩
  have hminted := hfills.minted ids hids
  obtain ⟨id, hid, hmade⟩ := hminted _ hcontains
  exact hminted.keep hid (hmade.append "_value") ⟨seed⟩

/-- The secrets of some fields are kept under handles made from ids drawn for them. -/
theorem fields_fills (secrets : List (String × String)) (m : Mint) :
    m.Fills (fields secrets m).2 := by
  induction secrets generalizing m with
  | nil => exact Fills.refl m
  | cons first rest ih =>
    obtain ⟨name, secret⟩ := first
    exact (fresh_fills (some name) ⟨secret⟩ m).1.trans (ih (field name secret m).2)

end Mint

/-- The fields of a credential are kept under handles made from ids drawn for them. -/
theorem CredentialSecret.mint_fills (secret : CredentialSecret) (m : Mint) :
    m.Fills (secret.mint m).2 := by
  cases secret with
  | creditCard card => exact Mint.fields_fills card.fields m
  | password secret =>
    have hfields :=
      Mint.fields_fills [("username", secret.username), ("password", secret.password)] m
    rw [mint_password]
    -- A seed comes after the two fields, if there is one.
    cases secret.seed? with
    | none => exact hfields
    | some seed => exact hfields.trans (Mint.totp_fills seed _)

open Program

/-! ## Work at the stores -/

namespace Surroundings

/-- No ids are drawn. -/
def SameDraws (s s' : Surroundings) : Prop := s'.draws = s.draws

instance : Std.Refl SameDraws := ⟨fun _ => rfl⟩

instance : Trans SameDraws SameDraws SameDraws := ⟨fun h h' => Eq.trans h' h⟩

/-- A query draws no ids. -/
theorem keepsTo_fetch (limit : Option Duration) (name : String) (q : Query) :
    (fetch limit name q).KeepsTo SameDraws := by
  have hsleep : ∀ ticks, (sleep ticks : Program Surroundings BindingError Unit).KeepsTo
      SameDraws := by
    intro ticks s
    unfold sleep
    -- Whoever does not sleep does not wait either.
    by_cases hzero : ticks = 0
    · rw [if_pos hzero]
      exact (rfl : SameDraws s s)
    · rw [if_neg hzero]
      exact keepsTo_waitFor _ s
  intro s
  unfold fetch
  have hasked : SameDraws s { s with asked := s.asked ++ [q] } := rfl
  -- With or without a limit the store is asked once, and no id is drawn for that.
  cases limit with
  | none => exact ((hsleep _).bind fun _ => keepsTo_ofExcept _) _ |>.after hasked
  | some limit =>
    dsimp only
    by_cases hlimit : (s.backend s.asked q).latency.ticks ≤ limit.ticks
    · rw [if_pos hlimit]
      exact ((hsleep _).bind fun _ => keepsTo_ofExcept _) _ |>.after hasked
    · rw [if_neg hlimit]
      exact ((hsleep _).bind fun _ => keepsTo_fail _) _ |>.after hasked

/-- Fetching a credential draws no ids. -/
theorem keepsTo_fetchCredential (limit : Option Duration) (id organization : String) :
    (fetchCredential limit id organization).KeepsTo SameDraws := by
  have hreport : ∀ event, (report event : Program Surroundings BindingError Unit).KeepsTo
      SameDraws := fun _ _ => rfl
  refine (hreport _).bind fun _ => (keepsTo_fetch limit id _).attempt.bind fun found => ?_
  -- Whatever the store answers, an id is drawn for nobody before the secret is there.
  cases found with
  | error e => exact (hreport _).bind fun _ => keepsTo_fail e
  | ok row =>
    cases row with
    | none => exact keepsTo_fail _
    | some row =>
      dsimp only
      by_cases horganization : row.organization ≠ organization
      · rw [if_pos horganization]
        exact keepsTo_fail _
      · rw [if_neg horganization]
        cases row.type with
        | password =>
          refine (keepsTo_fetch limit id _).bind fun secret => ?_
          cases secret with
          | none => exact keepsTo_fail _
          | some secret => exact keepsTo_pure _
        | creditCard =>
          refine (keepsTo_fetch limit id _).bind fun secret => ?_
          cases secret with
          | none => exact keepsTo_fail _
          | some secret => exact keepsTo_pure _
        | unsupported => exact (hreport _).bind fun _ => keepsTo_fail _

end Surroundings

/-! ## Work on a vault -/

namespace Bench

/-- The vault and the ids of a bench. -/
def toMint (b : Bench) : Mint := ⟨b.vault, b.around.draws⟩

/-- What work on a bench does to its vault is minting. -/
def Mints (b b' : Bench) : Prop := b.toMint.Fills b'.toMint

instance : Std.Refl Mints := ⟨fun b => Mint.Fills.refl b.toMint⟩

instance : Trans Mints Mints Mints := ⟨Mint.Fills.trans⟩

/-- Work on the surroundings that draws no ids does nothing to the vault. -/
theorem keepsTo_outside {α : Type} {p : Program Surroundings BindingError α}
    (hp : p.KeepsTo Surroundings.SameDraws) : (outside p).KeepsTo Mints := by
  refine hp.within fun b around hdraws => .of_vault rfl ?_
  have hsame : around.draws = b.around.draws := hdraws
  show b.around.draws.Later around.draws
  rw [hsame]
  exact .refl _

/-- Putting secrets into the vault is minting if the work is. -/
theorem keepsTo_mint {α : Type} {work : StateM Mint α} (h : ∀ m : Mint, m.Fills (work m).2) :
    (mint work : Program Bench BindingError α).KeepsTo Mints :=
  fun b => h b.toMint

/-- Resolving a credential mints handles for it. -/
theorem keepsTo_resolveCredential (limit : Option Duration) (id organization : String) :
    (resolveCredential limit id organization).KeepsTo Mints := by
  refine (keepsTo_outside (Surroundings.keepsTo_fetchCredential limit id organization)).bind
    fun secret => ?_
  exact (keepsTo_mint secret.mint_fills).bind fun _ => keepsTo_pure _

/-- Resolving an external secret mints a handle for it. -/
theorem keepsTo_resolveSecret (limit : Option Duration) (key : String) :
    (resolveSecret limit key).KeepsTo Mints := by
  refine (keepsTo_outside (Surroundings.keepsTo_fetch limit key _)).bind fun found => ?_
  cases found with
  | none => exact keepsTo_pure _
  | some secret =>
    exact (keepsTo_mint fun m => (Mint.fresh_fills none ⟨secret⟩ m).1).bind fun _ => keepsTo_pure _

end Bench

/-! ## Binding declarations -/

namespace Desk

/-- The vault of the context and the ids. -/
def toMint (d : Desk) : Mint := ⟨d.context.vault, d.around.draws⟩

/-- What work on a desk does to the vault is minting, and the context remains that of its run. -/
structure Mints (d d' : Desk) : Prop where
  fills : d.toMint.Fills d'.toMint
  run : d'.context.run = d.context.run

instance : Std.Refl Mints := ⟨fun d => ⟨Mint.Fills.refl d.toMint, rfl⟩⟩

instance : Trans Mints Mints Mints :=
  ⟨fun h h' => ⟨h.fills.trans h'.fills, h'.run.trans h.run⟩⟩

variable {α : Type}

/-- Work on the store mints nothing. -/
theorem keepsTo_onStore (action : Action Store α) : (onStore action).KeepsTo Mints :=
  fun d => ⟨Mint.Fills.refl d.toMint, rfl⟩

/-- A report mints nothing. -/
theorem keepsTo_report (event : Event) : (report event).KeepsTo Mints :=
  fun d => ⟨Mint.Fills.refl d.toMint, rfl⟩

/-- Work on the vault is what it is on its bench. -/
theorem keepsTo_onVault {p : Program Bench BindingError α} (hp : p.KeepsTo Bench.Mints) :
    (onVault p).KeepsTo Mints :=
  hp.within fun _ _ hfills => ⟨hfills, rfl⟩

/-- Resolving a credential of the organization mints handles for it. -/
theorem keepsTo_resolveCredential (id : String) : (resolveCredential id).KeepsTo Mints :=
  keepsTo_get.bind fun _ => keepsTo_onVault (Bench.keepsTo_resolveCredential _ id _)

/-- Resolving an external secret mints a handle for it. -/
theorem keepsTo_resolveSecret (key : String) : (resolveSecret key).KeepsTo Mints :=
  keepsTo_get.bind fun _ => keepsTo_onVault (Bench.keepsTo_resolveSecret _ key)

/-- All that the binding of declarations does to the vault of a run is minting. -/
theorem keepsTo_bindAll (declarations : Declarations) :
    (bindAll declarations).KeepsTo Mints := by
  have hparts : PartsKeepTo Mints :=
    { report := keepsTo_report
      credential := keepsTo_resolveCredential
      secret := keepsTo_resolveSecret
      designate := fun _ _ => keepsTo_onStore _
      define := fun _ _ _ => keepsTo_onStore _
      output := fun _ => keepsTo_onStore _
      context := fun _ => keepsTo_onStore _ }
  exact hparts.bindAll declarations

end Desk

end RunParams
