import RunParams.Proofs.Isolation.Minting
import RunParams.Proofs.KeyMaps

/-!
# What a vault reveals

Secrets are put into a vault one after the other: as a whole, for a field, or as the seed of a
one-time password (`Deposit`). Each deposit returns a handle and makes one entry under it or, for a
seed, two: a label under the handle and the seed under the handle with an ending.

When an id has not been drawn before, no handle of the vault is made from it, so the first handle
that is tried is free and the ending leads to another free one (`Deposit.mint_of_new`). Hence a
vault into which secrets have been put with distinct ids holds what was put there and reveals
nothing else, at every moment (`Mint.reveals_deposits`). What the fields are called does not matter,
even if a name ends like the handle of a seed.
-/

namespace RunParams

namespace Vault

variable {v : Vault} {entries : List (String × String)} {handle : String}

/-- A vault holds some entries, each under a handle of its own, and nothing else. -/
structure HoldsExactly (v : Vault) (entries : List (String × String)) : Prop where
  distinct : (entries.map Prod.fst).Nodup
  reveals : ∀ e ∈ entries, v.reveal (.text e.1) = some e.2
  /-- Any other value, be it a text or not, reveals nothing. -/
  nothingElse : ∀ value, (∀ e ∈ entries, value ≠ .text e.1) → v.reveal value = none
  size : v.size = entries.length

/-- A vault without secrets holds no entries. -/
theorem holdsExactly_ofLead (lead : String) : (ofLead lead).HoldsExactly [] := by
  refine ⟨List.nodup_nil, fun e he => absurd he List.not_mem_nil, fun value _ => ?_, rfl⟩
  cases value <;> rfl

/-- A secret that is kept under a free handle is one more entry. -/
theorem HoldsExactly.keep (h : v.HoldsExactly entries) (hfree : v.contains handle = false)
    (secret : Secret) :
    (v.keep handle secret).HoldsExactly (entries ++ [(handle, secret.text)]) := by
  -- A handle that is held is not free.
  have hnew : ∀ e ∈ entries, e.1 ≠ handle := by
    rintro e he rfl
    have hnone := reveal_of_contains_eq_false hfree
    rw [h.reveals e he] at hnone
    cases hnone
  -- The four parts of holding exactly: distinct handles, each revealing its own, no others, and
  -- size.
  constructor
  · rw [List.map_append, List.nodup_append]
    refine ⟨h.distinct, List.nodup_singleton handle, ?_⟩
    rintro key hkey other hother rfl
    obtain ⟨e, he, hsame⟩ := List.mem_map.mp hkey
    exact hnew e he (hsame.trans (List.mem_singleton.mp hother))
  · intro e he
    rw [reveal_keep]
    rcases List.mem_append.mp he with hold | hlast
    · rw [if_neg (hnew e hold), h.reveals e hold]
    · rw [List.mem_singleton.mp hlast, if_pos rfl]
  · intro value hvalue
    have hold : v.reveal value = none :=
      h.nothingElse value fun e he => hvalue e (List.mem_append_left _ he)
    -- Only texts can be handles.
    cases value with
    | text other =>
      have hother : other ≠ handle := by
        rintro rfl
        exact hvalue (other, secret.text) (List.mem_append_right _ (List.mem_singleton.mpr rfl)) rfl
      rw [reveal_keep, if_neg hother, hold]
    | _ => rfl
  · have hsize : (v.keep handle secret).size = v.size + 1 := KeyMap.size_insert secret hfree
    rw [hsize, h.size, List.length_append, List.length_singleton]

/-- The handle of a seed is not the handle of its label. -/
theorem seedHandle_ne (handle : String) : seedHandle handle ≠ handle := by
  intro h
  have hlength := congrArg String.length h
  have hending : ("_value" : String).length = 6 := rfl
  unfold seedHandle at hlength
  rw [String.length_append, hending] at hlength
  omega

end Vault

namespace Mint

variable {m : Mint} {ids : List Uuid} {known : List (String × String)}

/-- When the handle with the next id is free, it is taken. -/
theorem fresh_of_free {name : Option String}
    (hfree : m.vault.contains (Vault.handle m.vault.lead m.draws.draw.1 name) = false)
    (secret : Secret) :
    fresh name secret m = (Vault.handle m.vault.lead m.draws.draw.1 name,
      ⟨m.vault.keep (Vault.handle m.vault.lead m.draws.draw.1 name) secret, m.draws.draw.2⟩) := by
  have hhandle : ∀ fuel, freshHandle m.vault name fuel m.draws =
      (Vault.handle m.vault.lead m.draws.draw.1 name, m.draws.draw.2) := by
    -- The first id drawn will do, so the search for a free one ends there.
    intro fuel
    cases fuel with
    | zero => rfl
    | succ fuel =>
      unfold freshHandle
      dsimp only
      rw [if_neg (Bool.eq_false_iff.mp hfree)]
  unfold fresh
  rw [hhandle]

/-- A secret that is kept with an id from which no handle of the vault is made is one more entry,
and no other id is drawn for it. -/
theorem fresh_of_new (hminted : m.vault.Minted ids) (hholds : m.vault.HoldsExactly known)
    (hnew : m.draws.draw.1 ∉ ids) (name : Option String) (secret : Secret) :
    (fresh name secret m).2.draws = m.draws.draw.2 ∧
      (fresh name secret m).2.vault.HoldsExactly
        (known ++ [((fresh name secret m).1, secret.text)]) := by
  have hfree := hminted.contains_eq_false (Vault.madeFrom_handle _ _ name) hnew
  rw [fresh_of_free hfree]
  exact ⟨rfl, hholds.keep hfree secret⟩

/-- The seed of a one-time password makes two more entries. -/
theorem totp_of_new (hminted : m.vault.Minted ids) (hholds : m.vault.HoldsExactly known)
    (hnew : m.draws.draw.1 ∉ ids) (seed : String) :
    (totp seed m).2.draws = m.draws.draw.2 ∧
      (totp seed m).2.vault.HoldsExactly (known ++ [((totp seed m).1, Vault.totpLabel),
        (Vault.seedHandle (totp seed m).1, seed)]) := by
  have hmade := Vault.madeFrom_handle m.vault.lead m.draws.draw.1 (some "totp")
  have hfree := hminted.contains_eq_false hmade hnew
  obtain ⟨hdraws, hlabel⟩ := fresh_of_new hminted hholds hnew (some "totp") ⟨Vault.totpLabel⟩
  -- The handle of the seed is made from the same id, but longer than the one of the label.
  have hseed : (fresh (some "totp") ⟨Vault.totpLabel⟩ m).2.vault.contains
      (Vault.seedHandle (fresh (some "totp") ⟨Vault.totpLabel⟩ m).1) = false := by
    rw [fresh_of_free hfree, Vault.contains_keep_of_ne (Vault.seedHandle_ne _)]
    exact hminted.contains_eq_false (hmade.append "_value") hnew
  have hboth := hlabel.keep hseed ⟨seed⟩
  rw [List.append_assoc] at hboth
  exact ⟨hdraws, hboth⟩

end Mint

/-! ## Deposits -/

/-- Something that is put into a vault. -/
inductive Deposit where
  | whole (secret : String)
  | field (name secret : String)
  | totp (seed : String)
  deriving DecidableEq, Repr

namespace Deposit

/-- Puts it there. -/
def mint : Deposit → StateM Mint String
  | whole secret => Mint.whole secret
  | field name secret => Mint.field name secret
  | totp seed => Mint.totp seed

/-- Whether it is the seed of a one-time password. -/
def isTotp : Deposit → Bool
  | totp _ => true
  | whole _ | field _ _ => false

/-- What is to be revealed for it, and under what, when its handle is known. -/
def entries (handle : String) : Deposit → List (String × String)
  | whole secret | field _ secret => [(handle, secret)]
  | totp seed => [(handle, Vault.totpLabel), (Vault.seedHandle handle, seed)]

/-- What is to be revealed for some deposits with their handles. -/
def ledger (kept : List (Deposit × String)) : List (String × String) :=
  kept.flatMap fun k => k.1.entries k.2

/-- There are two entries for a seed and one for anything else. -/
theorem length_ledger (kept : List (Deposit × String)) :
    (ledger kept).length = (kept.map Prod.fst).countP (!·.isTotp) +
      2 * (kept.map Prod.fst).countP isTotp := by
  -- Each deposit has one entry, or two if it is a seed.
  induction kept with
  | nil => rfl
  | cons first rest ih =>
    obtain ⟨deposit, handle⟩ := first
    have hsplit : ledger ((deposit, handle) :: rest) = deposit.entries handle ++ ledger rest := rfl
    rw [hsplit, List.length_append, ih, List.map_cons, List.countP_cons, List.countP_cons]
    cases deposit <;> simp [entries, isTotp] <;> omega

variable {m : Mint} {ids : List Uuid} {known : List (String × String)}

/-- The handles that a deposit makes are made from an id that is drawn for it. -/
theorem mint_fills (deposit : Deposit) (m : Mint) : m.Fills (deposit.mint m).2 := by
  cases deposit with
  | whole secret => exact (Mint.fresh_fills none ⟨secret⟩ m).1
  | field name secret => exact (Mint.fresh_fills (some name) ⟨secret⟩ m).1
  | totp seed => exact Mint.totp_fills seed m

/-- At least one id is drawn for a deposit. -/
theorem later_mint (deposit : Deposit) (m : Mint) :
    m.draws.draw.2.Later (deposit.mint m).2.draws := by
  have hfresh : ∀ name secret, m.draws.draw.2.Later (Mint.fresh name secret m).2.draws := by
    intro name secret
    obtain ⟨hlater, id, hid, -⟩ := Mint.freshHandle_spec m.vault name m.vault.size m.draws
    obtain ⟨i, hle, hlt, -⟩ := Draws.mem_since.mp hid
    exact ⟨hlater.stream, Nat.lt_of_le_of_lt hle hlt⟩
  -- Every deposit draws first of all for its one fresh handle.
  cases deposit with
  | whole secret => exact hfresh none ⟨secret⟩
  | field name secret => exact hfresh (some name) ⟨secret⟩
  | totp seed => exact hfresh (some "totp") ⟨Vault.totpLabel⟩

/-- For a deposit with an id from which no handle of the vault is made just this id is drawn, and
its entries are added to those of the vault. -/
theorem mint_of_new (deposit : Deposit) (hminted : m.vault.Minted ids)
    (hholds : m.vault.HoldsExactly known) (hnew : m.draws.draw.1 ∉ ids) :
    (deposit.mint m).2.draws = m.draws.draw.2 ∧
      (deposit.mint m).2.vault.HoldsExactly (known ++ deposit.entries (deposit.mint m).1) := by
  cases deposit with
  | whole secret => exact Mint.fresh_of_new hminted hholds hnew none ⟨secret⟩
  | field name secret => exact Mint.fresh_of_new hminted hholds hnew (some name) ⟨secret⟩
  | totp seed => exact Mint.totp_of_new hminted hholds hnew seed

end Deposit

namespace Mint

open Deposit

variable {m : Mint} {ids : List Uuid} {known : List (String × String)}

/-- Makes some deposits, and returns each with its handle. -/
def keepAll : List Deposit → StateM Mint (List (Deposit × String))
  | [] => pure []
  | deposit :: rest => do
    let handle ← deposit.mint
    return (deposit, handle) :: (← keepAll rest)

/-- Deposits are returned as they are made. -/
theorem map_fst_keepAll (deposits : List Deposit) (m : Mint) :
    (keepAll deposits m).1.map Prod.fst = deposits := by
  induction deposits generalizing m with
  | nil => rfl
  | cons deposit rest ih => exact congrArg (deposit :: ·) (ih (deposit.mint m).2)

/-- Some deposits are made after others. -/
theorem keepAll_append (deposits others : List Deposit) (m : Mint) :
    keepAll (deposits ++ others) m =
      ((keepAll deposits m).1 ++ (keepAll others (keepAll deposits m).2).1,
        (keepAll others (keepAll deposits m).2).2) := by
  -- By induction on the deposits that come first, with the vault they have left generalized.
  induction deposits generalizing m with
  | nil => rfl
  | cons deposit rest ih =>
    have hrest := ih (deposit.mint m).2
    show ((deposit, _) :: (keepAll (rest ++ others) (deposit.mint m).2).1,
      (keepAll (rest ++ others) (deposit.mint m).2).2) = _
    rw [hrest]
    rfl

/-- Ids are only drawn. -/
theorem later_keepAll (deposits : List Deposit) (m : Mint) :
    m.draws.Later (keepAll deposits m).2.draws := by
  induction deposits generalizing m with
  | nil => exact .refl m.draws
  | cons deposit rest ih => exact (deposit.mint_fills m).later.trans (ih (deposit.mint m).2)

/-- When the ids that are drawn for some deposits are distinct and new, there is one for each
deposit, and the entries of the deposits are added to those of the vault. -/
theorem keepAll_of_distinct (deposits : List Deposit) (hminted : m.vault.Minted ids)
    (hholds : m.vault.HoldsExactly known)
    (hdistinct : (ids ++ m.draws.since (keepAll deposits m).2.draws).Nodup) :
    (keepAll deposits m).2.draws = { m.draws with next := m.draws.next + deposits.length } ∧
      (keepAll deposits m).2.vault.HoldsExactly (known ++ ledger (keepAll deposits m).1) := by
  -- By induction on the deposits. What is held grows by the entries of each, and the ids left over
  -- are those of the rest.
  induction deposits generalizing m ids known with
  | nil => exact ⟨rfl, (List.append_nil known).symm ▸ hholds⟩
  | cons deposit rest ih =>
    have hfinal : (keepAll (deposit :: rest) m).2 = (keepAll rest (deposit.mint m).2).2 := rfl
    have hlater : m.draws.draw.2.Later (keepAll rest (deposit.mint m).2).2.draws :=
      (deposit.later_mint m).trans (later_keepAll rest _)
    -- The first id is the one of the first deposit, and the others are left for the rest.
    rw [hfinal, Draws.since_draw hlater] at hdistinct
    have hnew : m.draws.draw.1 ∉ ids := fun hin =>
      (List.nodup_append.mp hdistinct).2.2 _ hin _ List.mem_cons_self rfl
    obtain ⟨hdraws, hholds'⟩ := deposit.mint_of_new hminted hholds hnew
    have hminted' : (deposit.mint m).2.vault.Minted (ids ++ [m.draws.draw.1]) := by
      have hfilled := (deposit.mint_fills m).minted ids hminted
      rwa [hdraws, Draws.since_one] at hfilled
    rw [List.append_cons, ← hdraws] at hdistinct
    obtain ⟨hnext, hrest⟩ := ih hminted' hholds' hdistinct
    -- As many ids were drawn as there are deposits, one for each.
    constructor
    · rw [hfinal, hnext, hdraws]
      show (⟨m.draws.stream, m.draws.next + 1 + rest.length⟩ : Draws) = _
      rw [List.length_cons, Nat.add_right_comm, Nat.add_assoc]
    · rw [List.append_assoc] at hrest
      exact hrest

/-- Secrets are put into a new vault, whatever the lead of its handles, and the ids that are drawn
are distinct. Then at each moment, when some of the deposits have been made, one id has been drawn
for each of them, all the handles, those of seeds included, are distinct, each of them reveals what
was put under it, no other value reveals anything, and there are two entries for each seed and one
for each other secret. And what handles were returned remains as it is. -/
theorem reveals_deposits (lead : String) (draws : Draws) {deposits earlier : List Deposit}
    (hdistinct : (draws.since (keepAll deposits ⟨.ofLead lead, draws⟩).2.draws).Nodup)
    (hearlier : earlier <+: deposits) :
    let all := (keepAll deposits ⟨.ofLead lead, draws⟩).1
    let kept := (keepAll earlier ⟨.ofLead lead, draws⟩).1
    let m := (keepAll earlier ⟨.ofLead lead, draws⟩).2
    kept.map Prod.fst = earlier ∧ kept <+: all ∧
      m.draws = { draws with next := draws.next + earlier.length } ∧
      m.vault.HoldsExactly (ledger kept) ∧
      m.vault.size = earlier.countP (!·.isTotp) + 2 * earlier.countP isTotp := by
  intro all kept m
  obtain ⟨later, rfl⟩ := hearlier
  have hfst : kept.map Prod.fst = earlier := map_fst_keepAll earlier _
  -- What is kept of more deposits begins with what is kept of the first ones.
  have hall : all = kept ++ (keepAll later m).1 :=
    congrArg Prod.fst (keepAll_append earlier later ⟨.ofLead lead, draws⟩)
  -- The ids of the earlier deposits are the first ones of all.
  have hfirst : draws.Later m.draws := later_keepAll earlier ⟨.ofLead lead, draws⟩
  have hsince : draws.since (keepAll (earlier ++ later) ⟨.ofLead lead, draws⟩).2.draws =
      draws.since m.draws ++ m.draws.since (keepAll later m).2.draws := by
    rw [keepAll_append]
    exact Draws.since_append hfirst (later_keepAll later m)
  rw [hsince] at hdistinct
  have hdistinct' : (draws.since m.draws).Nodup := (List.nodup_append.mp hdistinct).1
  obtain ⟨hdraws, hholds⟩ := keepAll_of_distinct earlier (m := ⟨.ofLead lead, draws⟩)
    (Vault.minted_ofLead lead) (Vault.holdsExactly_ofLead lead) hdistinct'
  refine ⟨hfst, hall ▸ List.prefix_append kept _, hdraws, hholds, ?_⟩
  rw [hholds.size, List.nil_append, length_ledger, hfst]

/-- A field is called like the ending of the handle of a seed, and handles have no lead. -/
theorem reveals_deposits_alike :
    let draws : Draws := ⟨fun n => .random n, 0⟩
    let deposits := [Deposit.field "totp_value" "pin", .totp "seed"]
    let m := (keepAll deposits ⟨.ofLead "", draws⟩).2
    (draws.since m.draws).Nodup ∧
      m.vault.HoldsExactly (ledger (keepAll deposits ⟨.ofLead "", draws⟩).1) ∧
      m.vault.size = 3 := by
  intro draws deposits m
  have hdistinct : (draws.since m.draws).Nodup := by decide +kernel
  obtain ⟨-, -, -, hholds, hsize⟩ := reveals_deposits "" draws hdistinct (List.prefix_refl deposits)
  exact ⟨hdistinct, hholds, hsize⟩

end Mint

end RunParams
