import RunParams.Proofs.Declarations.Findings
import RunParams.Proofs.Resolving.Credentials

/-!
# Registering a declaration

What binding one declaration does is told by what is found for it (`Desk.Deals`): if nothing can be
found, it fails and nothing is registered, and else it is registered as `Registered.put` says. So
`Desk.Reached`, that the context is just what some declarations make of it, holds with one more
declaration after each of them that is bound (`Desk.deals_bindOne`).

While secrets are fetched, others may ask the stores and draw ids. The responses do not depend on
that (`Desk.Stocked.answers`), and the ids that the run has drawn itself are what its handles are
made from, so that none of them is used twice.
-/

namespace RunParams

open Program

namespace Registered

/-- What registering a declaration does to the store. -/
def put (r : Registered) (s : Store) : Store :=
  match r.finding.isDefinition, r.value? with
  | false, _ => s
  | true, none => s.define r.declaration.parameter
  | true, some value => s.bind r.declaration.parameter value

/-- What is not defined has no value. -/
theorem value?_of_isDefinition_eq_false {r : Registered} (h : r.finding.isDefinition = false) :
    r.value? = none := by
  unfold value?
  cases hfinding : r.finding with
  | missing => rfl
  | unvalued => rfl
  | literal _ | credential _ | external _ =>
    rw [hfinding] at h
    cases h

/-- The values after registering a declaration. -/
theorem value?_put (r : Registered) (s : Store) (key : String) :
    (r.put s).value? key =
      if r.declaration.key = key then r.value?.or (s.value? key) else s.value? key := by
  unfold put
  cases hdefinition : r.finding.isDefinition with
  | false => rw [value?_of_isDefinition_eq_false hdefinition, Option.none_or, ite_self]
  | true =>
    cases r.value? with
    | none => rw [Option.none_or, ite_self, Store.value?_define]
    | some value =>
      rw [Option.some_or, Store.value?_bind]
      simp only [eq_comm, Declaration.key]

/-- The keys that are defined after registering a declaration. -/
theorem isDefined_put (r : Registered) (s : Store) (key : String) :
    (r.put s).isDefined key =
      (s.isDefined key || (decide (r.declaration.key = key) && r.finding.isDefinition)) := by
  have hdefine := Store.isDefined_define s r.declaration.parameter key
  unfold put
  cases hdefinition : r.finding.isDefinition with
  | false => rw [Bool.and_false, Bool.or_false]
  | true =>
    rw [Bool.and_true, Declaration.key, ← hdefine]
    cases r.value? <;> rfl

end Registered

namespace Desk

variable {α β : Type} {i : Inquiry} {entries : List (String × String)} {ids : List Uuid}
  {d t : Desk} {took : Takings}

/-- How work on a desk may end, and what it has taken then, when others leave the context and the
stores in place. -/
abbrev Ends (p : Program Desk BindingError α) (d : Desk) (took : Takings) (t : Desk)
    (r : Except BindingError α) : Prop :=
  (p d).Ends (Surroundings.meter.on Desk.around) SameStores d took t r

/-- Work that ends at once and takes nothing. -/
theorem of_at_once {p : Program Desk BindingError α} {d' : Desk} {result r : Except BindingError α}
    (hp : p d = .ended d' result) (hsupply : d.around.SameSupply d'.around)
    (h : Ends p d took t r) : took = .none ∧ t = d' ∧ r = result := by
  unfold Ends at h
  rw [hp] at h
  obtain ⟨rfl, rfl, rfl⟩ := h.of_ended
  exact ⟨hsupply.taken, rfl, rfl⟩

/-- Work that repeats itself takes things in their order. -/
theorem keepsTo_later {p : Program Desk BindingError α} (h : Repeats 0 p) :
    p.KeepsTo (Surroundings.meter.on Desk.around).later := h.keeps

/-- Work after something that ends at once and takes nothing. -/
theorem of_after {p : Program Desk BindingError α} {q : α → Program Desk BindingError β}
    {d' : Desk} {a : α} {r : Except BindingError β} (hp : p d = .ended d' (.ok a))
    (hsupply : d.around.SameSupply d'.around)
    (hq : (q a).KeepsTo (Surroundings.meter.on Desk.around).later)
    (h : Ends (p >>= q) d took t r) : Ends (q a) d' took t r := by
  have hbind : (p >>= q) d = (p d).bind q := rfl
  unfold Ends at h
  rw [hbind, hp] at h
  exact Paused.Ends.of_ended_bind hsupply.later hsupply.taken (hq d') h

/-- Nothing comes after something that fails at once. -/
theorem failed_bind {p : Program Desk BindingError α} {q : α → Program Desk BindingError β}
    {d' : Desk} {e : BindingError} (hp : p d = .ended d' (.error e)) :
    (p >>= q) d = .ended d' (.error e) := by
  have hbind : (p >>= q) d = (p d).bind q := rfl
  rwa [hp] at hbind

/-- The stores stay in place. -/
theorem backend_of_ends {p : Program Desk BindingError α} {r : Except BindingError α}
    (hp : p.KeepsTo (Surroundings.meter.on Desk.around).later) (h : Ends p d took t r) :
    t.around.backend = d.around.backend := by
  let same (d d' : Desk) : Prop := d'.around.backend = d.around.backend
  have : Trans same same same := ⟨fun h h' => h'.trans h⟩
  have hkept : p.KeepsTo same := hp.mono fun _ _ hlater => hlater.backend
  exact (hkept d).of_canStop (fun _ _ hsame => hsame.2) h.canEnd.canStop

/-- Work on the vault ends as it does on a bench, and is not seen elsewhere. -/
theorem ends_of_onVault {p : Program Bench BindingError α} {r : Except BindingError α}
    (h : Ends (onVault p) d took t r) :
    ∃ b, (p ⟨d.context.vault, d.around⟩).Ends (Surroundings.meter.on Bench.around)
        Bench.SameStores ⟨d.context.vault, d.around⟩ took b r ∧
      t.context = { d.context with vault := b.vault } := by
  let part (d : Desk) : Bench := ⟨d.context.vault, d.around⟩
  let replace (b : Bench) (d : Desk) : Desk := ⟨{ d.context with vault := b.vault }, b.around⟩
  change ((p (part d)).within part replace d).Ends _ _ d took t r at h
  have hpart : ∀ b whole found, SameStores (replace b whole) found →
      Bench.SameStores b (part found) := by
    intro b whole found hkept
    have hvault : found.context.vault = b.vault := congrArg Context.vault hkept.1
    exact ⟨hvault, hkept.2⟩
  -- Others leave the context alone, so beside the vault it is still the same.
  obtain ⟨b, whole, hinner, hwhole, rfl⟩ := h.of_within (Surroundings.meter.on Bench.around)
    Bench.SameStores
    (fun whole : Desk => ∀ v, { whole.context with vault := v } = { d.context with vault := v })
    (fun _ _ => rfl) hpart
    (fun _ _ _ hwhole hkept v => by rw [hkept.1]; exact hwhole v) fun _ => rfl
  exact ⟨b, hinner, hwhole b.vault⟩

/-- What the vault holds, and from which ids it is minted, while a run asks the stores. -/
structure Stocked (i : Inquiry) (entries : List (String × String)) (ids : List Uuid) (d : Desk) :
    Prop where
  answers : ∀ asked q, d.around.backend asked q = i.answer q
  limit : d.context.fetchLimit = i.limit
  organization : d.context.organization.id = i.organization
  holds : d.context.vault.HoldsExactly entries
  minted : d.context.vault.Minted ids

namespace Stocked

/-- Nothing in the vault is lost when only the store is worked on. -/
theorem of_store (hd : Stocked i entries ids d) (hbackend : t.around.backend = d.around.backend)
    {s : Store} (hcontext : t.context = { d.context with store := s }) :
    Stocked i entries ids t := by
  refine ⟨fun asked q => ?_, ?_, ?_, ?_, ?_⟩
  · rw [hbackend, hd.answers]
  all_goals rw [hcontext]
  exacts [hd.limit, hd.organization, hd.holds, hd.minted]

/-- When only the vault is worked on, what it holds then is known. -/
theorem of_vault (hd : Stocked i entries ids d) (hbackend : t.around.backend = d.around.backend)
    {v : Vault} (hcontext : t.context = { d.context with vault := v })
    {entries' : List (String × String)} {ids' : List Uuid} (hholds : v.HoldsExactly entries')
    (hminted : v.Minted ids') : Stocked i entries' ids' t := by
  refine ⟨fun asked q => ?_, ?_, ?_, ?_, ?_⟩
  · rw [hbackend, hd.answers]
  all_goals rw [hcontext]
  exacts [hd.limit, hd.organization, hholds, hminted]

/-- Ids that are drawn for the first time are not used in the vault. -/
theorem unused (hd : Stocked i entries ids d) {drawn : List Uuid}
    (hdistinct : (ids ++ drawn).Nodup) : ∀ id ∈ drawn, d.context.vault.Unused id :=
  fun _ hid => hd.minted.unused fun hin => (List.nodup_append.mp hdistinct).2.2 _ hin _ hid rfl

/-- A credential is resolved into what is found for it. -/
theorem of_resolveCredential {id : String} {r : Except BindingError Json}
    (hd : Stocked i entries ids d) (h : Ends (resolveCredential id) d took t r)
    (hdistinct : (ids ++ took.ids).Nodup) :
    t.context.store = d.context.store ∧
      ((∃ e, i.credential id = .error e ∧ r = .error e ∧ Stocked i entries (ids ++ took.ids) t) ∨
        ∃ secret kept, i.credential id = .ok secret ∧
          r = .ok (handlesValue (Deposit.named kept)) ∧ kept.map Prod.fst = secret.deposits ∧
          Stocked i (entries ++ Deposit.ledger kept) (ids ++ took.ids) t) := by
  have hbackend := backend_of_ends (keepsTo_later (repeats_resolveCredential id)) h
  obtain ⟨b, hend, hcontext⟩ := ends_of_onVault h
  refine ⟨by rw [hcontext], ?_⟩
  obtain ⟨asked, -, -, hresult⟩ := Bench.of_resolveCredential hend
  -- It does not matter what others have asked before.
  have hanswers : ∀ asked, d.around.backend asked = i.answer :=
    fun asked => funext (hd.answers asked)
  have hfound : CredentialSecret.outcome d.context.fetchLimit id d.context.organization.id
      (d.around.backend d.around.asked (.credential id d.context.organization.id))
      (d.around.backend asked) = i.credential id := by
    rw [hanswers, hanswers, hd.limit, hd.organization]
    rfl
  rw [hfound] at hresult
  cases hcredential : i.credential id with
  | error e =>
    rw [hcredential] at hresult
    obtain ⟨hr, hvault, hnone⟩ := hresult
    rw [hvault] at hcontext
    -- No draw has been made for a credential that was not found.
    rw [hnone, List.append_nil]
    exact .inl ⟨e, rfl, hr, hd.of_vault hbackend hcontext hd.holds hd.minted⟩
  | ok secret =>
    rw [hcredential] at hresult
    obtain ⟨draws, hids, hr, hvault⟩ := hresult
    rw [hvault] at hcontext
    -- The draws are fresh, so every deposit keeps the handle it was given and the vault gains just
    -- these.
    have hunused := hd.unused hdistinct
    rw [hids] at hunused ⊢
    have hresolved := secret.resolvesTo_mint (m := ⟨d.context.vault, draws⟩) hunused
    have hminted := (secret.mint_fills ⟨d.context.vault, draws⟩).minted ids hd.minted
    rw [CredentialSecret.mint_eq_keepAll] at hr
    exact .inr ⟨secret, _, rfl, hr, hresolved.deposits,
      hd.of_vault hbackend hcontext (hd.holds.gains hresolved.gains) hminted⟩

/-- An external secret is resolved into what is found for it. -/
theorem of_resolveSecret {key : String} {r : Except BindingError (Option String)}
    (hd : Stocked i entries ids d) (h : Ends (resolveSecret key) d took t r)
    (hdistinct : (ids ++ took.ids).Nodup) :
    t.context.store = d.context.store ∧
      ((∃ e, i.secret key = .error e ∧ r = .error e ∧ Stocked i entries (ids ++ took.ids) t) ∨
        (i.secret key = .ok none ∧ r = .ok none ∧ Stocked i entries (ids ++ took.ids) t) ∨
        ∃ text handle, i.secret key = .ok (some text) ∧ r = .ok (some handle) ∧
          Stocked i (entries ++ [(handle, text)]) (ids ++ took.ids) t) := by
  have hbackend := backend_of_ends (keepsTo_later (repeats_resolveSecret key)) h
  obtain ⟨b, hend, hcontext⟩ := ends_of_onVault h
  refine ⟨by rw [hcontext], ?_⟩
  have hresult := Bench.of_resolveSecret hend
  have hfound : (d.around.backend d.around.asked (.secret key)).outcome d.context.fetchLimit
      (Surroundings.describe key (.secret key)) = i.secret key := by
    rw [hd.answers, hd.limit]
    rfl
  rw [hfound] at hresult
  cases hsecret : i.secret key with
  | error e =>
    rw [hsecret] at hresult
    obtain ⟨hr, hvault, hnone⟩ := hresult
    rw [hvault] at hcontext
    rw [hnone, List.append_nil]
    exact .inl ⟨e, rfl, hr, hd.of_vault hbackend hcontext hd.holds hd.minted⟩
  | ok found =>
    rw [hsecret] at hresult
    cases found with
    | none =>
      obtain ⟨hr, hvault, hnone⟩ := hresult
      rw [hvault] at hcontext
      rw [hnone, List.append_nil]
      exact .inr (.inl ⟨rfl, hr, hd.of_vault hbackend hcontext hd.holds hd.minted⟩)
    | some text =>
      obtain ⟨draws, hids, hr, hvault⟩ := hresult
      rw [hvault] at hcontext
      have hunused := hd.unused hdistinct
      rw [hids] at hunused ⊢
      have hnames : ([Deposit.whole text].flatMap Deposit.names).Nodup := List.nodup_singleton none
      have hgains : d.context.vault.Gains (Mint.whole text ⟨d.context.vault, draws⟩).2.vault
          [((Mint.whole text ⟨d.context.vault, draws⟩).1, text)] :=
        Mint.keepAll_gains (m := ⟨d.context.vault, draws⟩) hnames hunused
      have hminted := (Mint.fresh_fills none ⟨text⟩ ⟨d.context.vault, draws⟩).1.minted ids hd.minted
      exact .inr (.inr ⟨text, _, rfl, hr,
        hd.of_vault hbackend hcontext (hd.holds.gains hgains) hminted⟩)

end Stocked

/-! ## One declaration -/

/-- Some declarations have been registered, and nothing else has happened to the context. -/
structure Reached (i : Inquiry) (done : List Registered) (ids : List Uuid) (d : Desk) : Prop where
  registers : i.Registers done
  stocked : Stocked i (Registered.ledger done) ids d
  values : ∀ key, d.context.store.value? key = Registered.valueOf done key
  defined : ∀ key, d.context.store.isDefined key = Registered.defines done key

variable {done : List Registered}

namespace Reached

/-- One more declaration is registered. -/
theorem concat {r : Registered} {ids' : List Uuid} (hd : Reached i done ids d)
    (hfound : i.find done r.declaration = .ok r.finding)
    (hkept : r.kept.map Prod.fst = r.finding.deposits)
    (hstocked : Stocked i (Registered.ledger done ++ Deposit.ledger r.kept) ids' t)
    (hstore : t.context.store = r.put d.context.store) : Reached i (done ++ [r]) ids' t := by
  refine ⟨hd.registers.concat hfound hkept, ?_, fun key => ?_, fun key => ?_⟩
  · rwa [Registered.ledger_concat]
  · rw [hstore, Registered.value?_put, Registered.valueOf_concat, hd.values]
  · rw [hstore, Registered.isDefined_put, Registered.defines_concat, hd.defined]

/-- One more declaration is registered for which nothing is put into the vault. -/
theorem concat_plain {declaration : Declaration} {finding : Finding} {ids' : List Uuid}
    (hd : Reached i done ids d) (hfound : i.find done declaration = .ok finding)
    (hplain : finding.deposits = []) (hstocked : Stocked i (Registered.ledger done) ids' t)
    (hstore : t.context.store = Registered.put ⟨declaration, finding, []⟩ d.context.store) :
    Reached i (done ++ [⟨declaration, finding, []⟩]) ids' t := by
  refine hd.concat hfound hplain.symm ?_ hstore
  rwa [Deposit.ledger, List.flatMap_nil, List.append_nil]

/-- Nothing is registered when the store is not worked on. -/
theorem of_same {ids' : List Uuid} (hd : Reached i done ids d)
    (hstocked : Stocked i (Registered.ledger done) ids' t)
    (hstore : t.context.store = d.context.store) : Reached i done ids' t := by
  refine ⟨hd.registers, hstocked, fun key => ?_, fun key => ?_⟩
  · rw [hstore, hd.values]
  · rw [hstore, hd.defined]

/-- Events are reported elsewhere. -/
theorem logged (hd : Reached i done ids d) (events : List Event) :
    Reached i done ids ⟨d.context, d.around.logged events⟩ :=
  hd.of_same (hd.stocked.of_store rfl rfl) rfl

end Reached

/-- Binds one declaration. -/
def bindOne : Declaration → Program Desk BindingError Unit
  | .binding b => bindWorkflow b
  | .output p => declareOutput p
  | .secret p => bindSecret p
  | .context p => declareContext p

/-- How one declaration may have been dealt with, by what is found for it: it is registered, or it
fails and nothing is. -/
def Deals (i : Inquiry) (done : List Registered) (declaration : Declaration) (ids : List Uuid)
    (t : Desk) (r : Except BindingError Unit) : Prop :=
  match i.find done declaration with
  | .error e => r = .error e ∧ Reached i done ids t
  | .ok finding => r = .ok () ∧
      ∃ kept, Reached i (done ++ [⟨declaration, finding, kept⟩]) ids t

variable {r : Except BindingError Unit}

/-- A declaration that cannot be registered fails. -/
theorem deals_error {declaration : Declaration} {e : BindingError}
    (hfind : i.find done declaration = .error e) (hr : r = .error e) (hd : Reached i done ids t) :
    Deals i done declaration ids t r := by
  unfold Deals
  rw [hfind]
  exact ⟨hr, hd⟩

/-- A declaration that can be registered is. -/
theorem deals_ok {declaration : Declaration} {finding : Finding} {k : List (Deposit × String)}
    (hfind : i.find done declaration = .ok finding) (hr : r = .ok ())
    (hd : Reached i (done ++ [⟨declaration, finding, k⟩]) ids t) :
    Deals i done declaration ids t r := by
  unfold Deals
  rw [hfind]
  exact ⟨hr, k, hd⟩

/-- A declaration that is dealt with at once takes nothing. -/
theorem deals_at_once {declaration : Declaration} {p : Program Desk BindingError Unit} {d' : Desk}
    {result : Except BindingError Unit} (hp : p d = .ended d' result)
    (hsupply : d.around.SameSupply d'.around) (hdeals : Deals i done declaration ids d' result)
    (h : Ends p d took t r) : Deals i done declaration (ids ++ took.ids) t r := by
  obtain ⟨rfl, rfl, rfl⟩ := of_at_once hp hsupply h
  rwa [show ids ++ Takings.none.ids = ids from List.append_nil ids]

/-- What has succeeded has registered the declaration. -/
theorem Deals.of_ok {declaration : Declaration} {u : Unit}
    (h : Deals i done declaration ids t (.ok u)) :
    ∃ finding kept, i.find done declaration = .ok finding ∧
      Reached i (done ++ [⟨declaration, finding, kept⟩]) ids t := by
  unfold Deals at h
  cases hfind : i.find done declaration with
  | error e =>
    rw [hfind] at h
    cases h.1
  | ok finding =>
    rw [hfind] at h
    obtain ⟨-, kept, ht⟩ := h
    exact ⟨finding, kept, rfl, ht⟩

/-- What has failed has failed because the declaration cannot be registered. -/
theorem Deals.of_error {declaration : Declaration} {e : BindingError}
    (h : Deals i done declaration ids t (.error e)) :
    i.find done declaration = .error e ∧ Reached i done ids t := by
  unfold Deals at h
  cases hfind : i.find done declaration with
  | error e' =>
    rw [hfind] at h
    obtain ⟨hr, ht⟩ := h
    cases hr
    exact ⟨rfl, ht⟩
  | ok finding =>
    rw [hfind] at h
    cases h.1

/-- An output is declared unless its key is taken. -/
theorem deals_declareOutput {p : OutputParameter} (hd : Reached i done ids d)
    (h : Ends (declareOutput p) d took t r) : Deals i done (.output p) (ids ++ took.ids) t r := by
  have hfind : i.find done (.output p) = if d.context.store.isDefined p.key then
      .error (.outputKeyCollision p.key) else .ok .unvalued := by
    rw [hd.defined]
    rfl
  cases hdefined : d.context.store.isDefined p.key with
  | true =>
    -- Only the report of the collision is left behind.
    refine deals_at_once (declareOutput_of_isDefined hdefined) ⟨rfl, rfl, rfl⟩ ?_ h
    exact deals_error (hfind.trans (if_pos hdefined)) rfl (hd.logged _)
  | false =>
    have hfind := hfind.trans (if_neg (Bool.eq_false_iff.mp hdefined))
    refine deals_at_once (declareOutput_of_free hdefined) ⟨rfl, rfl, rfl⟩ ?_ h
    exact deals_ok hfind rfl (hd.concat_plain hfind rfl (hd.stocked.of_store rfl rfl) rfl)

/-- A context parameter is defined unless its source is of a kind that cannot be one. -/
theorem deals_declareContext {p : ContextParameter} (hd : Reached i done ids d)
    (h : Ends (declareContext p) d took t r) : Deals i done (.context p) (ids ++ took.ids) t r := by
  have hfind : i.find done (.context p) = (Store.checkSource p).map fun _ => .unvalued := rfl
  have hended : declareContext p d =
      .ended ⟨{ d.context with store := (Store.addContext p d.context.store).state },
        d.around.logged (Store.addContext p d.context.store).events⟩
        (Store.addContext p d.context.store).result := rfl
  refine deals_at_once hended ⟨rfl, rfl, rfl⟩ ?_ h
  have haction : Store.addContext p d.context.store = match Store.checkSource p with
      | .error e => ⟨.error e, d.context.store, []⟩
      | .ok _ => ⟨.ok (), d.context.store.define (.context p), []⟩ := by
    unfold Store.addContext
    cases Store.checkSource p <;> rfl
  cases hcheck : Store.checkSource p with
  | error e =>
    rw [hcheck] at hfind haction
    rw [haction]
    exact deals_error hfind rfl (hd.logged _)
  | ok u =>
    rw [hcheck] at hfind haction
    rw [haction]
    exact deals_ok hfind rfl (hd.concat_plain hfind rfl (hd.stocked.of_store rfl rfl) rfl)

/-- Two pieces of work take the ids of the first and then those of the second. -/
theorem ids_append (ids : List Uuid) (first rest : Takings) :
    ids ++ (first ++ rest).ids = ids ++ first.ids ++ rest.ids :=
  (List.append_assoc ids first.ids rest.ids).symm

/-- A parameter that stands for a credential is bound to the handles for its secret. -/
theorem deals_credential {declaration : Declaration} {id : String} (hd : Reached i done ids d)
    (hfind : i.find done declaration = (i.credential id).map .credential)
    (h : Ends (resolveCredential id >>= define declaration.parameter) d took t r)
    (hdistinct : (ids ++ took.ids).Nodup) : Deals i done declaration (ids ++ took.ids) t r := by
  have hresolve := keepsTo_later (repeats_resolveCredential id)
  have hdefine := fun value => keepsTo_later (repeats_define declaration.parameter value)
  rcases Paused.Ends.of_bind (hresolve d) hdefine h with
    ⟨s, value, first, rest, rfl, hfirst, hrest⟩ | ⟨e, rfl, hfirst⟩
  · -- All draws of the whole were made for the credential, since to define takes none.
    -- All that is taken is taken for the credential.
    obtain ⟨rfl, rfl, rfl⟩ := of_at_once (p := define declaration.parameter value) rfl
      ⟨rfl, rfl, rfl⟩ hrest
    rw [Takings.append_none] at hdistinct ⊢
    obtain ⟨hstore, ⟨e, -, hr, -⟩ | ⟨secret, kept, hcredential, hr, hdeposits, hstocked⟩⟩ :=
      hd.stocked.of_resolveCredential hfirst hdistinct
    · cases hr
    · cases hr
      rw [hcredential] at hfind
      refine deals_ok hfind rfl (hd.concat hfind hdeposits (hstocked.of_store rfl rfl) ?_)
      exact congrArg (Store.bind · declaration.parameter _) hstore
  · obtain ⟨hstore, ⟨e', hcredential, hr, hstocked⟩ | ⟨secret, kept, -, hr, -⟩⟩ :=
      hd.stocked.of_resolveCredential hfirst hdistinct
    · cases hr
      rw [hcredential] at hfind
      exact deals_error hfind rfl (hd.of_same hstocked hstore)
    · cases hr

/-- A workflow parameter is bound to its value, or to the handles of a credential. -/
theorem deals_defineWorkflow {b : WorkflowBinding} (hd : Reached i done ids d)
    (h : Ends (defineWorkflow b) d took t r) (hdistinct : (ids ++ took.ids).Nodup) :
    Deals i done (.binding b) (ids ++ took.ids) t r := by
  unfold defineWorkflow at h
  by_cases htype : b.parameter.type = .credentialId
  · -- Among workflow parameters only those that name a credential ask the stores.
    rw [if_pos htype] at h
    cases htext : b.value.text? with
    | none =>
      rw [htext] at h
      refine deals_at_once rfl ⟨rfl, rfl, rfl⟩ ?_ h
      exact deals_error (Inquiry.find_binding_of_no_text htype htext) rfl hd
    | some id =>
      rw [htext] at h
      exact deals_credential hd (Inquiry.find_binding_of_text htype htext) h hdistinct
  · have hfind : i.find done (.binding b) = .ok (.literal b.value) := if_neg htype
    rw [if_neg htype] at h
    refine deals_at_once (p := define _ b.value) rfl ⟨rfl, rfl, rfl⟩ ?_ h
    exact deals_ok hfind rfl (hd.concat_plain hfind rfl (hd.stocked.of_store rfl rfl) rfl)

/-- Binding a workflow parameter deals with it. If its key is bound already that is reported, and
nothing else comes of it. -/
theorem deals_bindWorkflow {b : WorkflowBinding} (hd : Reached i done ids d)
    (h : Ends (bindWorkflow b) d took t r) (hdistinct : (ids ++ took.ids).Nodup) :
    Deals i done (.binding b) (ids ++ took.ids) t r := by
  have hlook : bindWorkflow b d = (do
      if d.context.store.isDefined b.parameter.key then
        report (.bindingReplaced d.context.run b.parameter.key)
      defineWorkflow b : Program Desk BindingError Unit) d := rfl
  unfold Ends at h
  rw [hlook] at h
  by_cases hdefined : d.context.store.isDefined b.parameter.key = true
  · -- The report that a key is replaced goes before, and registers nothing.
    rw [if_pos hdefined] at h
    have hafter := of_after (p := report _) (q := fun _ => defineWorkflow b) rfl ⟨rfl, rfl, rfl⟩
      (keepsTo_later (repeats_defineWorkflow b)) h
    exact deals_defineWorkflow (hd.logged _) hafter hdistinct
  · rw [if_neg hdefined] at h
    exact deals_defineWorkflow hd h hdistinct

/-- Which credential a parameter designates is told by what has been registered. -/
theorem result_designated {s : Store} (hvalues : ∀ key, s.value? key = Registered.valueOf done key)
    (hdefined : ∀ key, s.isDefined key = Registered.defines done key) (run : String)
    (p : CredentialParameter) : (designated run p s).result = Inquiry.designated done p := by
  -- Both ask the same questions, one of the store and one of what has been registered.
  unfold designated Inquiry.designated
  rw [Action.bind_ok (Action.get_apply s), ← hdefined, ← hvalues]
  by_cases hid : p.credentialId = ""
  · simp only [hid, if_true]
    rfl
  · simp only [hid, if_false]
    by_cases hkey : s.isDefined p.credentialId = true
    · simp only [hkey, if_true]
      cases s.value? p.credentialId with
      | none => rfl
      | some value => cases value <;> rfl
    · simp only [hkey]
      rfl

/-- A credential parameter is bound to the handles of the credential that it designates. -/
theorem deals_bindCredential {p : CredentialParameter} (hd : Reached i done ids d)
    (h : Ends (bindCredential p) d took t r) (hdistinct : (ids ++ took.ids).Nodup) :
    Deals i done (.secret (.credential p)) (ids ++ took.ids) t r := by
  have hresult := result_designated hd.values hd.defined d.context.run p
  have hstate := state_designated d.context.run p d.context.store
  have hfind : i.find done (.secret (.credential p)) =
      (Inquiry.designated done p).bind fun id => (i.credential id).map .credential := rfl
  have hlook : bindCredential p d = (onStore (designated d.context.run p) >>= fun id =>
      resolveCredential id >>= define (.credential p)) d := rfl
  have hended : onStore (designated d.context.run p) d = .ended
      ⟨d.context, d.around.logged (designated d.context.run p d.context.store).events⟩
      (Inquiry.designated done p) := by
    rw [← hresult]
    unfold onStore
    dsimp only
    rw [hstate]
  unfold Ends at h
  rw [hlook] at h
  cases hdesignated : Inquiry.designated done p with
  | error e =>
    rw [hdesignated] at hfind hended
    refine deals_at_once (failed_bind hended) ⟨rfl, rfl, rfl⟩ ?_ h
    -- The choice of the id asks nothing of the stores, so a failure here leaves all but the log
    -- alone.
    exact deals_error hfind rfl (hd.logged _)
  | ok id =>
    rw [hdesignated] at hfind hended
    have hresolve := keepsTo_later (p := resolveCredential id >>= define (.credential p))
      ((repeats_resolveCredential id).bind fun value => repeats_define _ value)
    have hafter : Ends (resolveCredential id >>= define (Declaration.parameter
        (.secret (.credential p)))) _ took t r :=
      of_after (q := fun id => resolveCredential id >>= define (.credential p)) hended
        ⟨rfl, rfl, rfl⟩ hresolve h
    exact deals_credential (hd.logged _) hfind hafter hdistinct

/-- An external secret is bound to its handle, if the store has it. -/
theorem deals_bindExternalSecret {p : ExternalSecretParameter} (hd : Reached i done ids d)
    (h : Ends (bindExternalSecret p) d took t r) (hdistinct : (ids ++ took.ids).Nodup) :
    Deals i done (.secret (.externalSecret p)) (ids ++ took.ids) t r := by
  have hfind : i.find done (.secret (.externalSecret p)) =
      (i.secret p.secretKey).map fun found => found.elim .missing .external := rfl
  have hresolve := keepsTo_later (repeats_resolveSecret p.secretKey)
  have hmissing := keepsTo_later (p := .get >>= fun d =>
    report (.secretWithoutValue d.context.run p.key p.secretKey))
    (repeats_look (fun _ => repeats_report _) fun _ _ _ => rfl)
  rcases Paused.Ends.of_bind (hresolve d) (fun found => by
      cases found with
      | none => exact hmissing
      | some handle => exact keepsTo_later (repeats_define _ (.text handle))) h with
    ⟨s, found, first, rest, rfl, hfirst, hrest⟩ | ⟨e, rfl, hfirst⟩
  · -- The question is answered, and what follows, a definition or a report, takes nothing.
    rw [ids_append] at hdistinct
    obtain ⟨hstore, ⟨e, -, hr, -⟩ | ⟨hsecret, hr, hstocked⟩ |
        ⟨text, handle, hsecret, hr, hstocked⟩⟩ :=
      hd.stocked.of_resolveSecret hfirst (List.nodup_append.mp hdistinct).1
    · cases hr
    · -- The store does not have it, so the key stays as it is.
      cases hr
      rw [hsecret] at hfind
      obtain ⟨rfl, rfl, rfl⟩ := of_at_once (p := report _) rfl ⟨rfl, rfl, rfl⟩ hrest
      rw [Takings.append_none]
      exact deals_ok hfind rfl (hd.concat_plain hfind rfl (hstocked.of_store rfl rfl) hstore)
    · cases hr
      rw [hsecret] at hfind
      obtain ⟨rfl, rfl, rfl⟩ := of_at_once (p := define _ (.text handle)) rfl ⟨rfl, rfl, rfl⟩ hrest
      rw [Takings.append_none]
      refine deals_ok (k := [(.whole text, handle)]) hfind rfl
        (hd.concat hfind rfl (hstocked.of_store rfl rfl) ?_)
      exact congrArg (Store.bind · (.externalSecret p) (.text handle)) hstore
  · obtain ⟨hstore, ⟨e', hsecret, hr, hstocked⟩ | ⟨-, hr, -⟩ | ⟨text, handle, -, hr, -⟩⟩ :=
      hd.stocked.of_resolveSecret hfirst hdistinct
    · cases hr
      rw [hsecret] at hfind
      exact deals_error hfind rfl (hd.of_same hstocked hstore)
    · cases hr
    · cases hr

/-- A declaration is dealt with by what is found for it. -/
theorem deals_bindOne {declaration : Declaration} (hd : Reached i done ids d)
    (h : Ends (bindOne declaration) d took t r) (hdistinct : (ids ++ took.ids).Nodup) :
    Deals i done declaration (ids ++ took.ids) t r :=
  match declaration with
  | .binding _ => deals_bindWorkflow hd h hdistinct
  | .output _ => deals_declareOutput hd h
  | .secret (.credential _) => deals_bindCredential hd h hdistinct
  | .secret (.externalSecret _) => deals_bindExternalSecret hd h hdistinct
  | .context _ => deals_declareContext hd h

end Desk

end RunParams
