import RunParams.Proofs.Isolation.Deposits
import RunParams.Resolver

/-!
# What a vault gains

A vault gains some entries when they are put under handles that it did not have and nothing else in
it changes (`Vault.Gains`). This is what deposits do to a vault from whose handles the ids are
absent that are drawn for them (`Vault.Unused`), even if one id is drawn twice: a handle tells its
field (`Vault.handle_injective`), so it is enough that no two of the deposits are for the same one
(`Mint.keepAll_gains`).

The secret of a credential is such deposits, made in the order of its fields
(`CredentialSecret.mint_eq_keepAll`).
-/

namespace RunParams

namespace Vault

variable {v w : Vault} {entries : List (String × String)} {handle : String}

/-- With one lead, a handle tells its id and its field. -/
theorem handle_injective {lead : String} {id id' : Uuid} {field field' : Option String}
    (h : Vault.handle lead id field = Vault.handle lead id' field') :
    id = id' ∧ field = field' := by
  have hmade : MadeFrom lead id' (Vault.handle lead id field) := h ▸ madeFrom_handle lead id' field'
  cases (madeFrom_handle lead id field).unique hmade
  refine ⟨rfl, ?_⟩
  have hlists := congrArg String.toList h
  -- Handles with and without a name differ in length.
  cases field with
  | none =>
    cases field' with
    | none => rfl
    | some name' =>
      have hlength := congrArg List.length hlists
      simp [Vault.handle] at hlength
  | some name =>
    cases field' with
    | none =>
      have hlength := congrArg List.length hlists
      simp [Vault.handle] at hlength
    | some name' =>
      -- The names stand behind the same lead and id.
      have hnames : (lead ++ id.render ++ "_").toList ++ name.toList =
          (lead ++ id.render ++ "_").toList ++ name'.toList := by
        rw [← String.toList_append, ← String.toList_append]
        exact hlists
      exact congrArg some (String.toList_inj.mp (List.append_cancel_left hnames))

/-- No handle of a vault is made from an id. -/
def Unused (v : Vault) (id : Uuid) : Prop :=
  ∀ handle, MadeFrom v.lead id handle → v.contains handle = false

/-- A vault that is minted from some ids does not use any other. -/
theorem Minted.unused {ids : List Uuid} (h : v.Minted ids) {id : Uuid} (hid : id ∉ ids) :
    v.Unused id :=
  fun _ hmade => h.contains_eq_false hmade hid

/-- A vault has some entries more than another, under handles that the other does not have, and is
the same otherwise. -/
structure Gains (v w : Vault) (entries : List (String × String)) : Prop where
  lead : w.lead = v.lead
  distinct : (entries.map Prod.fst).Nodup
  absent : ∀ e ∈ entries, v.contains e.1 = false
  reveals : ∀ e ∈ entries, w.revealText e.1 = some e.2
  others : ∀ handle, (∀ e ∈ entries, e.1 ≠ handle) → w.revealText handle = v.revealText handle
  size : w.size = v.size + entries.length

/-- A vault has no more than itself. -/
theorem Gains.refl (v : Vault) : v.Gains v [] :=
  ⟨rfl, List.nodup_nil, fun _ he => absurd he List.not_mem_nil,
    fun _ he => absurd he List.not_mem_nil, fun _ _ => rfl, rfl⟩

/-- A text is a handle of a vault when it reveals something. -/
theorem contains_eq_isSome (v : Vault) (handle : String) :
    v.contains handle = (v.revealText handle).isSome := by
  show (v.secrets.get? handle).isSome = _
  exact (Option.isSome_map ..).symm

/-- A handle that a vault did not have and did not gain is free. -/
theorem Gains.contains_eq_false (h : v.Gains w entries) (hold : v.contains handle = false)
    (hnew : ∀ e ∈ entries, e.1 ≠ handle) : w.contains handle = false := by
  rw [contains_eq_isSome, h.others handle hnew, ← contains_eq_isSome, hold]

/-- A secret that is kept under a free handle is one more entry. -/
theorem Gains.keep (h : v.Gains w entries) (hold : v.contains handle = false)
    (hnew : ∀ e ∈ entries, e.1 ≠ handle) (secret : Secret) :
    v.Gains (w.keep handle secret) (entries ++ [(handle, secret.text)]) := by
  have hkept : ∀ other, (w.keep handle secret).revealText other =
      if other = handle then some secret.text else w.revealText other := reveal_keep w handle secret
  -- In turn: distinct, not there before, revealed, no others changed, and as many more.
  refine ⟨h.lead, ?_, fun e he => ?_, fun e he => ?_, fun other hother => ?_, ?_⟩
  · rw [List.map_append, List.map_singleton, List.nodup_append_comm, List.singleton_append]
    refine List.nodup_cons.mpr ⟨fun hmem => ?_, h.distinct⟩
    obtain ⟨e, he, hsame⟩ := List.mem_map.mp hmem
    exact hnew e he hsame
  · rcases List.mem_append.mp he with hearlier | hlast
    · exact h.absent e hearlier
    · cases List.mem_singleton.mp hlast
      exact hold
  · rw [hkept]
    rcases List.mem_append.mp he with hearlier | hlast
    · rw [if_neg (hnew e hearlier), h.reveals e hearlier]
    · cases List.mem_singleton.mp hlast
      exact if_pos rfl
  · -- A handle that is not the new one and none of the earlier gains is as it was.
    have hlast : other ≠ handle := by
      rintro rfl
      exact hother (other, secret.text) (List.mem_append_right _ List.mem_cons_self) rfl
    rw [hkept, if_neg hlast]
    exact h.others other fun e he => hother e (List.mem_append_left _ he)
  · have hsize : (w.keep handle secret).size = w.size + 1 :=
      KeyMap.size_insert secret (h.contains_eq_false hold hnew)
    rw [hsize, h.size, List.length_append, List.length_singleton, Nat.add_assoc]

/-- What a vault holds and what another has more is what the other holds. -/
theorem HoldsExactly.gains {known : List (String × String)} (h : v.HoldsExactly known)
    (hgains : v.Gains w entries) : w.HoldsExactly (known ++ entries) := by
  have hapart : ∀ e ∈ known, ∀ e' ∈ entries, e'.1 ≠ e.1 := by
    intro e he e' he' hsame
    have hhas : v.contains e.1 = true := by
      rw [contains_eq_isSome, show v.revealText e.1 = some e.2 from h.reveals e he]
      rfl
    rw [← hsame, hgains.absent e' he'] at hhas
    cases hhas
  -- The known handles stay what they are and the gained ones come after them.
  refine ⟨?_, fun e he => ?_, fun value hvalue => ?_, ?_⟩
  · rw [List.map_append]
    refine List.Nodup.append h.distinct hgains.distinct fun handle hold hnew => ?_
    obtain ⟨e, he, rfl⟩ := List.mem_map.mp hold
    obtain ⟨e', he', hsame⟩ := List.mem_map.mp hnew
    exact hapart e he e' he' hsame
  · rcases List.mem_append.mp he with hold | hnew
    · exact (hgains.others e.1 (hapart e hold)).trans (h.reveals e hold)
    · exact hgains.reveals e hnew
  · have hold : v.reveal value = none :=
      h.nothingElse value fun e he => hvalue e (List.mem_append_left _ he)
    -- Only a text is a handle, so nothing else is revealed by either vault.
    cases value with
    | text handle =>
      refine (hgains.others handle fun e he hsame => ?_).trans hold
      exact hvalue e (List.mem_append_right _ he) (congrArg Json.text hsame.symm)
    | null | bool _ | number _ | array _ | object _ => rfl
  · rw [hgains.size, h.size, List.length_append]

end Vault

/-! ## Deposits for different fields -/

namespace Deposit

variable {m : Mint} {v : Vault} {known : List (String × String)}

/-- The name of the field in the handle, if there is one. -/
def name? : Deposit → Option String
  | whole _ => none
  | field name _ => some name
  | totp _ => some "totp"

/-- The names of the fields in all handles that are made. -/
def names : Deposit → List (Option String)
  | whole _ => [none]
  | field name _ => [some name]
  | totp _ => [some "totp", some "totp_value"]

/-- The handle of a seed is one for a field. -/
theorem seedHandle_handle (lead : String) (id : Uuid) :
    Vault.seedHandle (Vault.handle lead id (some "totp")) =
      Vault.handle lead id (some "totp_value") := by
  show lead ++ id.render ++ "_" ++ "totp" ++ "_value" = lead ++ id.render ++ "_" ++ "totp_value"
  exact String.append_assoc

/-- The handles that are made have these names, and the same id. -/
theorem map_fst_entries (deposit : Deposit) (lead : String) (id : Uuid) :
    (deposit.entries (Vault.handle lead id deposit.name?)).map Prod.fst =
      deposit.names.map (Vault.handle lead id) := by
  cases deposit with
  | whole secret => rfl
  | field name secret => rfl
  | totp seed =>
    exact congrArg (fun handle => [Vault.handle lead id (some "totp"), handle])
      (seedHandle_handle lead id)

/-- When the next id is not used and no deposit for the same field was made, the deposit is made
with this id, and the vault gains its entries. -/
theorem mint_of_unused (deposit : Deposit) (hgains : v.Gains m.vault known)
    (hunused : v.Unused m.draws.draw.1)
    (hnew : ∀ e ∈ known, ∀ name ∈ deposit.names,
      e.1 ≠ Vault.handle v.lead m.draws.draw.1 name) :
    (deposit.mint m).1 = Vault.handle v.lead m.draws.draw.1 deposit.name? ∧
      (deposit.mint m).2.draws = m.draws.draw.2 ∧
      v.Gains (deposit.mint m).2.vault (known ++ deposit.entries (deposit.mint m).1) := by
  have habsent : ∀ name, v.contains (Vault.handle v.lead m.draws.draw.1 name) = false :=
    fun name => hunused _ (Vault.madeFrom_handle _ _ name)
  have hfresh : ∀ name ∈ deposit.names, ∀ secret,
      Mint.fresh name secret m = (Vault.handle v.lead m.draws.draw.1 name,
        ⟨m.vault.keep (Vault.handle v.lead m.draws.draw.1 name) secret, m.draws.draw.2⟩) := by
    intro name hname secret
    have hfree := hgains.contains_eq_false (habsent name) fun e he => hnew e he name hname
    rw [← hgains.lead] at hfree ⊢
    exact Mint.fresh_of_free hfree secret
  have hkept : ∀ name ∈ deposit.names, ∀ secret, v.Gains
      (m.vault.keep (Vault.handle v.lead m.draws.draw.1 name) secret)
      (known ++ [(Vault.handle v.lead m.draws.draw.1 name, secret.text)]) :=
    fun name hname => hgains.keep (habsent name) fun e he => hnew e he name hname
  -- A deposit is one fresh handle, and a seed is one more behind the same id.
  cases deposit with
  | whole secret =>
    have hmint : (whole secret).mint m = _ := hfresh none List.mem_cons_self ⟨secret⟩
    rw [hmint]
    exact ⟨rfl, rfl, hkept none List.mem_cons_self ⟨secret⟩⟩
  | field name secret =>
    have hmint : (field name secret).mint m = _ := hfresh (some name) List.mem_cons_self ⟨secret⟩
    rw [hmint]
    exact ⟨rfl, rfl, hkept (some name) List.mem_cons_self ⟨secret⟩⟩
  | totp seed =>
    have hmint : (totp seed).mint m = (Vault.handle v.lead m.draws.draw.1 (some "totp"),
        ⟨(m.vault.keep (Vault.handle v.lead m.draws.draw.1 (some "totp")) ⟨Vault.totpLabel⟩).keep
          (Vault.seedHandle (Vault.handle v.lead m.draws.draw.1 (some "totp"))) ⟨seed⟩,
          m.draws.draw.2⟩) := by
      show (let label := Mint.fresh (some "totp") ⟨Vault.totpLabel⟩ m
        (label.1, ({ label.2 with
          vault := label.2.vault.keep (Vault.seedHandle label.1) ⟨seed⟩ } : Mint))) = _
      rw [hfresh (some "totp") List.mem_cons_self]
    rw [hmint]
    refine ⟨rfl, rfl, ?_⟩
    -- The handle of the seed is one for a field with another name.
    have hlabel := hkept (some "totp") List.mem_cons_self ⟨Vault.totpLabel⟩
    have hseed := seedHandle_handle v.lead m.draws.draw.1
    have hboth := hlabel.keep (hseed ▸ habsent (some "totp_value")) (fun e he => ?_) ⟨seed⟩
    · -- The new handle of the seed is none of those gained before, nor the one of its label.
      rwa [List.append_assoc] at hboth
    · rcases List.mem_append.mp he with hearlier | hlast
      · rw [hseed]
        exact hnew e hearlier (some "totp_value") (List.mem_cons_of_mem _ List.mem_cons_self)
      · cases List.mem_singleton.mp hlast
        exact (Vault.seedHandle_ne _).symm

end Deposit

namespace Mint

open Deposit

variable {m : Mint} {v : Vault} {known : List (String × String)}

/-- When no two deposits are for the same field and the ids that are drawn for them are not used,
the vault gains the entries of the deposits. -/
theorem keepAll_gains_from (names : List (Option String)) (deposits : List Deposit)
    (hgains : v.Gains m.vault known)
    (hknown : ∀ e ∈ known, ∃ id, ∃ name ∈ names, e.1 = Vault.handle v.lead id name)
    (hnames : (names ++ deposits.flatMap Deposit.names).Nodup)
    (hunused : ∀ id ∈ m.draws.since (keepAll deposits m).2.draws, v.Unused id) :
    v.Gains (keepAll deposits m).2.vault (known ++ ledger (keepAll deposits m).1) := by
  -- By induction on the deposits. No two deposits share a name, so handles differ even if ids did
  -- not.
  induction deposits generalizing m known names with
  | nil => exact (List.append_nil known).symm ▸ hgains
  | cons deposit rest ih =>
    have hfinal : (keepAll (deposit :: rest) m).2 = (keepAll rest (deposit.mint m).2).2 := rfl
    have hlater : m.draws.draw.2.Later (keepAll rest (deposit.mint m).2).2.draws :=
      (deposit.later_mint m).trans (later_keepAll rest _)
    rw [hfinal, Draws.since_draw hlater] at hunused
    rw [List.flatMap_cons, ← List.append_assoc] at hnames
    have hapart : ∀ name ∈ names, ∀ name' ∈ deposit.names, name ≠ name' :=
      (List.nodup_append.mp (List.nodup_append.mp hnames).1).2.2
    obtain ⟨hhandle, hdraws, hgains'⟩ := deposit.mint_of_unused hgains
      (hunused _ List.mem_cons_self) fun e he name hname hsame => by
        obtain ⟨id, name', hname', hmade⟩ := hknown e he
        exact hapart name' hname' name hname (Vault.handle_injective (hmade.symm.trans hsame)).2
    have hknown' : ∀ e ∈ known ++ deposit.entries (deposit.mint m).1,
        ∃ id, ∃ name ∈ names ++ deposit.names, e.1 = Vault.handle v.lead id name := by
      intro e he
      -- The handles of before have names of before, and those of this deposit have its names.
      rcases List.mem_append.mp he with hearlier | hlast
      · obtain ⟨id, name, hname, hmade⟩ := hknown e hearlier
        exact ⟨id, name, List.mem_append_left _ hname, hmade⟩
      · have hmem := List.mem_map_of_mem (f := Prod.fst) hlast
        rw [hhandle, map_fst_entries] at hmem
        obtain ⟨name, hname, hmade⟩ := List.mem_map.mp hmem
        exact ⟨_, name, List.mem_append_right _ hname, hmade.symm⟩
    rw [← hdraws] at hunused
    have hrest := ih _ hgains' hknown' hnames fun id hid => hunused id (List.mem_cons_of_mem _ hid)
    rw [List.append_assoc] at hrest
    exact hrest

/-- A vault gains the entries of deposits for different fields. -/
theorem keepAll_gains {deposits : List Deposit}
    (hnames : (deposits.flatMap Deposit.names).Nodup)
    (hunused : ∀ id ∈ m.draws.since (keepAll deposits m).2.draws, m.vault.Unused id) :
    m.vault.Gains (keepAll deposits m).2.vault (ledger (keepAll deposits m).1) :=
  keepAll_gains_from [] deposits (.refl m.vault) (fun _ he => absurd he List.not_mem_nil) hnames
    hunused

end Mint

/-! ## The secret of a credential -/

/-- The names and the handles of deposits that are for fields. -/
def Deposit.named (kept : List (Deposit × String)) : List (String × String) :=
  kept.filterMap fun k => k.1.name?.map fun name => (name, k.2)

/-- The names are those of the deposits. -/
theorem Deposit.map_fst_named (kept : List (Deposit × String)) :
    (named kept).map Prod.fst = (kept.map Prod.fst).filterMap name? := by
  unfold named
  rw [List.map_filterMap, List.filterMap_map]
  refine List.filterMap_congr fun k _ => ?_
  show (k.1.name?.map _).map Prod.fst = k.1.name?
  rw [Option.map_map]
  exact Option.map_id' ..

/-- The secrets of some fields are deposits. -/
theorem Mint.fields_eq_keepAll (secrets : List (String × String)) (m : Mint) :
    fields secrets m =
      (Deposit.named (keepAll (secrets.map fun s => .field s.1 s.2) m).1,
        (keepAll (secrets.map fun s => .field s.1 s.2) m).2) := by
  -- By induction on the fields, each of which is one deposit.
  induction secrets generalizing m with
  | nil => rfl
  | cons first rest ih =>
    obtain ⟨name, secret⟩ := first
    have hrest := ih (field name secret m).2
    show ((name, _) :: (fields rest (field name secret m).2).1,
      (fields rest (field name secret m).2).2) = _
    rw [hrest]
    rfl

namespace CredentialSecret

variable {v w : Vault}

/-- What is put into a vault for a secret, in the order in which this is done. -/
def deposits : CredentialSecret → List Deposit
  | password secret => [.field "username" secret.username, .field "password" secret.password] ++
      (secret.seed?.map Deposit.totp).toList
  | creditCard secret => secret.fields.map fun field => .field field.1 field.2

/-- The number of entries that are made for a secret. -/
def entryCount : CredentialSecret → Nat
  | password secret => if secret.seed?.isSome then 4 else 2
  | creditCard _ => 6

/-- A secret is put into a vault by its deposits. -/
theorem mint_eq_keepAll (secret : CredentialSecret) (m : Mint) :
    secret.mint m =
      (Deposit.named (Mint.keepAll secret.deposits m).1, (Mint.keepAll secret.deposits m).2) := by
  -- The fields of a card are its deposits. A password has two fields, and then perhaps a seed.
  cases secret with
  | creditCard card => exact Mint.fields_eq_keepAll card.fields m
  | password secret =>
    simp only [mint_password, deposits, Mint.fields_eq_keepAll, List.map_cons, List.map_nil,
      Mint.keepAll_append]
    generalize Mint.keepAll [.field "username" secret.username,
      .field "password" secret.password] m = first
    -- Without a seed there are the two fields only, and with one its label comes last.
    cases secret.seed? with
    | none => exact (congrArg (fun kept => (Deposit.named kept, first.2)) (List.append_nil _)).symm
    | some seed =>
      have hnamed : Deposit.named (first.1 ++ [(.totp seed, (Mint.totp seed first.2).1)]) =
          Deposit.named first.1 ++ [("totp", (Mint.totp seed first.2).1)] :=
        List.filterMap_append
      exact congrArg (fun names => (names, (Mint.totp seed first.2).2)) hnamed.symm

/-- The deposits of a secret are for different fields, also in the handle of a seed. -/
theorem nodup_names (secret : CredentialSecret) :
    (secret.deposits.flatMap Deposit.names).Nodup := by
  -- The names of the fields are fixed, and a seed adds two that no field has.
  cases secret with
  | creditCard card =>
    show ([some "card_number", some "card_cvv", some "card_exp_month", some "card_exp_year",
      some "card_brand", some "card_holder_name"] : List (Option String)).Nodup
    decide
  | password secret =>
    simp only [deposits]
    cases secret.seed? with
    | none =>
      show ([some "username", some "password"] : List (Option String)).Nodup
      decide
    | some seed =>
      show ([some "username", some "password", some "totp", some "totp_value"] :
        List (Option String)).Nodup
      decide

/-- What a credential is resolved into: a value and new entries of a vault. -/
structure ResolvesTo (secret : CredentialSecret) (v w : Vault) (value : Json)
    (kept : List (Deposit × String)) : Prop where
  /-- There is a deposit for each field of the secret. -/
  deposits : kept.map Prod.fst = secret.deposits
  /-- The value is an object with the names of the fields and the handles, and nothing else. -/
  value : ∃ members, value = .object members ∧
    members.Perm ((Deposit.named kept).map fun n => (n.1, .text n.2))
  /-- The vault gains what the deposits are to reveal, and nothing else. -/
  gains : v.Gains w (Deposit.ledger kept)
  size : w.size = v.size + secret.entryCount

/-- As many entries are made for a secret as its deposits make. -/
theorem length_ledger {secret : CredentialSecret} {kept : List (Deposit × String)}
    (h : kept.map Prod.fst = secret.deposits) :
    (Deposit.ledger kept).length = secret.entryCount := by
  rw [Deposit.length_ledger, h]
  cases secret with
  | creditCard card => rfl
  | password secret =>
    simp only [CredentialSecret.deposits, entryCount]
    cases secret.seed? with
    | none => rfl
    | some seed => rfl

/-- The names of the fields are different. -/
theorem nodup_named {secret : CredentialSecret} {kept : List (Deposit × String)}
    (h : kept.map Prod.fst = secret.deposits) : ((Deposit.named kept).map Prod.fst).Nodup := by
  rw [Deposit.map_fst_named, h]
  cases secret with
  | creditCard card =>
    show (["card_number", "card_cvv", "card_exp_month", "card_exp_year", "card_brand",
      "card_holder_name"] : List String).Nodup
    decide
  | password secret =>
    simp only [CredentialSecret.deposits]
    cases secret.seed? with
    | none =>
      show (["username", "password"] : List String).Nodup
      decide
    | some seed =>
      show (["username", "password", "totp"] : List String).Nodup
      decide

/-- When the ids that are drawn are not used, a secret is resolved. -/
theorem resolvesTo_mint (secret : CredentialSecret) {m : Mint}
    (hunused : ∀ id ∈ m.draws.since (secret.mint m).2.draws, m.vault.Unused id) :
    secret.ResolvesTo m.vault (secret.mint m).2.vault (handlesValue (secret.mint m).1)
      (Mint.keepAll secret.deposits m).1 := by
  rw [mint_eq_keepAll] at hunused ⊢
  have hdeposits := Mint.map_fst_keepAll secret.deposits m
  have hgains := Mint.keepAll_gains secret.nodup_names hunused
  -- The members are sorted into an object, and as their names differ none of them is lost.
  refine ⟨hdeposits, ⟨_, rfl, Entries.sort_perm ?_⟩, hgains, ?_⟩
  · rw [List.map_map]
    exact nodup_named hdeposits
  · rw [hgains.size, length_ledger hdeposits]

end CredentialSecret

end RunParams
