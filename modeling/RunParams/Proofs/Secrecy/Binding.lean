import RunParams.Context.Bind
import RunParams.Lookup.Memory
import RunParams.Proofs.Secrecy.Vaults

/-!
# Binding does not look at secrets

Two surroundings are alike if their stores give alike responses to every query, whatever was asked
before: the same rows, latencies and failures, and a secret in both or in neither. Two contexts are
alike if they differ at most in the secrets behind their handles.

`Desk.bindAll_alike` shows that the declarations of a run are bound alike in alike contexts. The
proof goes up from the stores (`Surroundings.fetch_alike`) through the vault
(`Bench.resolveCredential_alike`) to the declarations, one after the other.
-/

namespace RunParams

/-- Answers that agree, for a secret only in whether it is there. Of a password credential it also
counts whether it has a one-time password. -/
def Query.Alike : (q : Query) → q.Answer → q.Answer → Prop
  | .credential _ _ => fun a b => a = b
  | .password _ => fun a b =>
    a.map (fun s : PasswordSecret => s.seed?.isSome) =
      b.map (fun s : PasswordSecret => s.seed?.isSome)
  | .creditCard _ => fun a b => a.isSome = b.isSome
  | .secret _ => fun a b => a.isSome = b.isSome

/-- Stores that always respond after the same time, with the same failure or with alike answers. -/
def Backend.Alike (b b' : Backend) : Prop :=
  ∀ asked q, (b asked q).latency = (b' asked q).latency ∧
    ResultAlike q.Alike (b asked q).result (b' asked q).result

/-- Tables with the same rows and latencies, and with secrets under the same keys. -/
structure Memory.Alike (m m' : Memory) : Prop where
  credentials : m.credentials = m'.credentials
  credentialLatency : m.credentialLatency = m'.credentialLatency
  secretLatency : m.secretLatency = m'.secretLatency
  passwords : ∀ id, (m.passwords.get? id).map (fun s => s.seed?.isSome) =
    (m'.passwords.get? id).map (fun s => s.seed?.isSome)
  creditCards : ∀ id, (m.creditCards.get? id).isSome = (m'.creditCards.get? id).isSome
  secrets : ∀ key, (m.secrets.get? key).isSome = (m'.secrets.get? key).isSome

namespace Memory.Alike

variable {m m' : Memory}

/-- A store is alike to itself. -/
theorem refl (m : Memory) : Memory.Alike m m :=
  ⟨rfl, rfl, rfl, fun _ => rfl, fun _ => rfl, fun _ => rfl⟩

/-- Two password credentials that both have a one-time password, or both not. -/
theorem addPassword (h : Memory.Alike m m') (id organization : String) {s s' : PasswordSecret}
    (hseed : s.seed?.isSome = s'.seed?.isSome) :
    Memory.Alike (m.addPassword id organization s) (m'.addPassword id organization s') := by
  have hrows : (m.addPassword id organization s).credentials =
      (m'.addPassword id organization s').credentials := by
    simp only [Memory.addPassword, Memory.addCredential, h.credentials]
  refine { h with credentials := hrows, passwords := ?_ }
  intro other
  simp only [Memory.addPassword, KeyMap.get?_insert]
  split
  · simp only [Option.map_some, hseed]
  · exact h.passwords other

/-- Two credit cards. -/
theorem addCreditCard (h : Memory.Alike m m') (id organization : String)
    (s s' : CreditCardSecret) :
    Memory.Alike (m.addCreditCard id organization s) (m'.addCreditCard id organization s') := by
  have hrows : (m.addCreditCard id organization s).credentials =
      (m'.addCreditCard id organization s').credentials := by
    simp only [Memory.addCreditCard, Memory.addCredential, h.credentials]
  refine { h with credentials := hrows, creditCards := ?_ }
  intro other
  simp only [Memory.addCreditCard, KeyMap.get?_insert]
  split
  · rfl
  · exact h.creditCards other

/-- Two external secrets. -/
theorem addSecret (h : Memory.Alike m m') (key value value' : String) :
    Memory.Alike (m.addSecret key value) (m'.addSecret key value') := by
  refine { h with secrets := ?_ }
  intro other
  simp only [Memory.addSecret, KeyMap.get?_insert]
  split
  · rfl
  · exact h.secrets other

end Memory.Alike

/-- Alike tables make alike stores. -/
theorem Memory.Alike.backend {m m' : Memory} (h : Memory.Alike m m') :
    Backend.Alike m.backend m'.backend := by
  intro asked q
  refine ⟨?_, .ok ?_⟩
  · cases q <;> simp only [Memory.backend, Memory.latency, h.credentialLatency, h.secretLatency]
  · cases q with
    | credential id organization =>
      show m.credential? id organization = m'.credential? id organization
      unfold Memory.credential?
      rw [h.credentials]
    | password id => exact h.passwords id
    | creditCard id => exact h.creditCards id
    | secret key => exact h.secrets key

/-- Of two answers both have a value if one has. -/
theorem both_or_neither {α β : Type} {a : Option α} {b : Option β} (h : a.isSome = b.isSome) :
    (a = none ∧ b = none) ∨ ∃ x y, a = some x ∧ b = some y := by
  cases a with
  | none =>
    cases b with
    | none => exact Or.inl ⟨rfl, rfl⟩
    | some y => cases h
  | some x =>
    cases b with
    | none => cases h
    | some y => exact Or.inr ⟨x, y, rfl, rfl⟩

/-- Alike answers about a password are two secrets with or without a one-time password, or none. -/
theorem Query.Alike.of_password {id : String} {a b : Option PasswordSecret}
    (h : Query.Alike (.password id) a b) :
    (a = none ∧ b = none) ∨
      ∃ s s', a = some s ∧ b = some s' ∧ s.seed?.isSome = s'.seed?.isSome := by
  have hpresence : a.isSome = b.isSome := by
    rw [← Option.isSome_map (f := fun s : PasswordSecret => s.seed?.isSome), h, Option.isSome_map]
  rcases both_or_neither hpresence with hnone | ⟨s, s', rfl, rfl⟩
  · exact Or.inl hnone
  · exact Or.inr ⟨s, s', rfl, rfl, Option.some.inj h⟩

/-- Surroundings with alike stores and everything else the same. -/
structure Surroundings.Alike (s s' : Surroundings) : Prop where
  backend : Backend.Alike s.backend s'.backend
  asked : s.asked = s'.asked
  draws : s.draws = s'.draws
  clock : s.clock = s'.clock
  log : s.log = s'.log

namespace Surroundings

variable {ε : Type} {s s' : Surroundings}

/-- Alike surroundings stay alike when the same events are logged. -/
theorem Alike.logged (h : Alike s s') (events : List Event) :
    Alike (s.logged events) (s'.logged events) :=
  { h with log := congrArg (· ++ events) h.log }

theorem report_alike (event : Event) :
    Program.Alike Alike Eq (report event : Program Surroundings ε Unit) (report event) :=
  .modify fun _ _ hs => hs.logged _

/-- Whoever sleeps the same time in alike surroundings wakes up in alike ones. -/
theorem sleep_alike (ticks : Nat) :
    Program.Alike Alike Eq (sleep ticks : Program Surroundings ε Unit) (sleep ticks) := by
  intro s s' hs
  unfold sleep
  split
  · exact .ended hs (.ok rfl)
  · rw [hs.clock]
    exact Program.Alike.waitFor s s' hs

/-- A fetch from alike stores takes the same time and ends alike. -/
theorem fetch_alike (limit : Option Duration) (name : String) (q : Query) :
    Program.Alike Alike q.Alike (fetch limit name q) (fetch limit name q) := by
  intro s s' hs
  -- The same was asked before on both sides, so the stores respond alike.
  obtain ⟨hlatency, hresult⟩ := hs.backend s.asked q
  rw [hs.asked] at hlatency hresult
  have hasked : Alike { s with asked := s'.asked ++ [q] } { s' with asked := s'.asked ++ [q] } :=
    { hs with asked := rfl }
  have hanswer := (sleep_alike (ε := BindingError) (s'.backend s'.asked q).latency.ticks).andThen
    (Program.Alike.ofExcept (R := Alike) hresult)
  simp only [fetch, hs.asked, hlatency]
  -- The limit is compared with a latency that both sides share.
  cases limit with
  | none => exact hanswer _ _ hasked
  | some limit =>
    dsimp only
    split
    · exact hanswer _ _ hasked
    · exact ((sleep_alike limit.ticks).andThen .fail) _ _ hasked

/-- A credential is fetched alike: the same failure, or secrets of one type. -/
theorem fetchCredential_alike (limit : Option Duration) (id organization : String) :
    Program.Alike Alike CredentialSecret.Alike (fetchCredential limit id organization)
      (fetchCredential limit id organization) := by
  refine (report_alike _).andThen ((fetch_alike _ _ _).attempt.bind ?_)
  rintro _ _ (⟨hrow⟩ | _)
  · -- The row itself is the same on both sides, so the same secret is asked for, if any.
    change _ = _ at hrow
    subst hrow
    -- Each way on is taken on both sides, for it depends on the row alone.
    split
    · exact (report_alike _).andThen .fail
    · exact .fail
    · split
      · exact .fail
      · split
        · refine (fetch_alike _ _ _).bind fun a b hab => ?_
          rcases hab.of_password with ⟨rfl, rfl⟩ | ⟨secret, secret', rfl, rfl, hseed⟩
          · exact .fail
          · exact .pure (.password hseed)
        · refine (fetch_alike _ _ _).bind fun a b hab => ?_
          rcases both_or_neither hab with ⟨rfl, rfl⟩ | ⟨secret, secret', rfl, rfl⟩
          · exact .fail
          · exact .pure .creditCard
        · exact (report_alike _).andThen .fail
  · exact (report_alike _).andThen .fail

end Surroundings

/-- Vaults and surroundings that are alike. -/
structure Bench.Alike (b b' : Bench) : Prop where
  vault : Vault.Alike b.vault b'.vault
  around : Surroundings.Alike b.around b'.around

namespace Bench

variable {ε α : Type}

/-- Work on alike surroundings leaves alike vaults as they are. -/
theorem outside_alike {V : α → α → Prop} {p p' : Program Surroundings ε α}
    (h : Program.Alike Surroundings.Alike V p p') :
    Program.Alike Alike V (outside p) (outside p') :=
  h.within (fun _ _ hb => hb.around) fun _ _ _ _ hs hb => { hb with around := hs }

/-- Minting that returns the same from alike vaults. -/
theorem mint_alike {f f' : StateM Mint α} (h : Mint.SameReturn f f') :
    Program.Alike Alike Eq (mint f : Program Bench ε α) (mint f') := by
  intro b b' hb
  have hbegin : Mint.Alike ⟨b.vault, b.around.draws⟩ ⟨b'.vault, b'.around.draws⟩ :=
    ⟨hb.vault, hb.around.draws⟩
  obtain ⟨hvalue, hmint⟩ := h _ _ hbegin
  exact .ended ⟨hmint.vault, { hb.around with draws := hmint.draws }⟩ (.ok hvalue)

/-- A credential is resolved to the same handles, whatever its secret is. -/
theorem resolveCredential_alike (limit : Option Duration) (id organization : String) :
    Program.Alike Alike Eq (resolveCredential limit id organization)
      (resolveCredential limit id organization) := by
  refine (outside_alike (Surroundings.fetchCredential_alike _ _ _)).bind fun s s' hs => ?_
  refine (mint_alike (CredentialSecret.mint_alike hs)).bind fun handles _ hh => ?_
  exact .pure (congrArg handlesValue hh)

/-- An external secret is resolved to the same handle, whatever it is. -/
theorem resolveSecret_alike (limit : Option Duration) (key : String) :
    Program.Alike Alike Eq (resolveSecret limit key) (resolveSecret limit key) := by
  refine (outside_alike (Surroundings.fetch_alike _ _ _)).bind fun a b hab => ?_
  rcases both_or_neither hab with ⟨rfl, rfl⟩ | ⟨secret, secret', rfl, rfl⟩
  · exact .pure rfl
  · refine (mint_alike (Mint.fresh_alike none ⟨secret⟩ ⟨secret'⟩)).bind fun handle _ hh => ?_
    exact .pure (congrArg some hh)

end Bench

/-- Contexts that differ at most in the secrets behind their handles. -/
structure Context.Alike (c c' : Context) : Prop where
  run : c.run = c'.run
  organization : c.organization = c'.organization
  createdAt : c.createdAt = c'.createdAt
  fetchLimit : c.fetchLimit = c'.fetchLimit
  vault : Vault.Alike c.vault c'.vault
  store : c.store = c'.store
  metadata : c.metadata = c'.metadata

/-- A context is alike to itself. -/
theorem Context.Alike.refl (c : Context) : Context.Alike c c :=
  ⟨rfl, rfl, rfl, rfl, .refl _, rfl, rfl⟩

/-- Contexts and surroundings that are alike. -/
structure Desk.Alike (d d' : Desk) : Prop where
  context : Context.Alike d.context d'.context
  around : Surroundings.Alike d.around d'.around

namespace Desk

variable {α β : Type}

/-- Work on the store of alike contexts. -/
theorem onStore_alike (action : Action Store α) :
    Program.Alike Alike Eq (onStore action) (onStore action) := by
  intro d d' hd
  simp only [onStore, hd.context.store]
  exact .ended ⟨{ hd.context with store := rfl }, hd.around.logged _⟩ (resultAlike_eq.mpr rfl)

theorem report_alike (event : Event) : Program.Alike Alike Eq (report event) (report event) :=
  .modify fun _ _ hd => { hd with around := hd.around.logged _ }

theorem define_alike (p : Parameter) (value : Json) :
    Program.Alike Alike Eq (define p value) (define p value) :=
  onStore_alike _

/-- Work on the vault of alike contexts. -/
theorem onVault_alike {V : α → α → Prop} {p p' : Program Bench BindingError α}
    (h : Program.Alike Bench.Alike V p p') : Program.Alike Alike V (onVault p) (onVault p') :=
  h.within (fun _ _ hd => ⟨hd.context.vault, hd.around⟩)
    fun _ _ _ _ hb hd => ⟨{ hd.context with vault := hb.vault }, hb.around⟩

theorem resolveCredential_alike (id : String) :
    Program.Alike Alike Eq (resolveCredential id) (resolveCredential id) := by
  refine Program.Alike.get.bind fun d d' hd => ?_
  rw [hd.context.fetchLimit, hd.context.organization]
  exact onVault_alike (Bench.resolveCredential_alike _ _ _)

theorem resolveSecret_alike (key : String) :
    Program.Alike Alike Eq (resolveSecret key) (resolveSecret key) := by
  refine Program.Alike.get.bind fun d d' hd => ?_
  rw [hd.context.fetchLimit]
  exact onVault_alike (Bench.resolveSecret_alike _ _)

/-- A workflow parameter gets the same value. -/
theorem defineWorkflow_alike (b : WorkflowBinding) :
    Program.Alike Alike Eq (defineWorkflow b) (defineWorkflow b) := by
  unfold defineWorkflow
  by_cases htype : b.parameter.type = .credentialId
  · rw [if_pos htype]
    cases b.value.text? with
    | none => exact .fail
    | some id =>
      refine (resolveCredential_alike id).bind fun value _ hv => ?_
      subst hv
      exact define_alike _ _
  · rw [if_neg htype]
    exact define_alike _ _

/-- A workflow parameter is bound alike. -/
theorem bindWorkflow_alike (b : WorkflowBinding) :
    Program.Alike Alike Eq (bindWorkflow b) (bindWorkflow b) := by
  refine Program.Alike.get.bind fun d d' hd => ?_
  rw [hd.context.store, hd.context.run]
  by_cases hdefined : d'.context.store.isDefined b.parameter.key = true
  · simp only [hdefined, if_true]
    exact (report_alike _).andThen (defineWorkflow_alike b)
  · simp only [hdefined]
    exact defineWorkflow_alike b

/-- An output parameter is declared alike. -/
theorem declareOutput_alike (p : OutputParameter) :
    Program.Alike Alike Eq (declareOutput p) (declareOutput p) := by
  refine Program.Alike.get.bind fun d d' hd => ?_
  rw [hd.context.store, hd.context.run]
  split
  · exact (report_alike _).andThen .fail
  · exact onStore_alike _

/-- A secret parameter is bound to the same handles. -/
theorem bindSecret_alike (p : SecretParameter) :
    Program.Alike Alike Eq (bindSecret p) (bindSecret p) := by
  cases p with
  | credential p =>
    refine Program.Alike.get.bind fun d d' hd => ?_
    rw [hd.context.run]
    refine (onStore_alike _).bind fun id _ hid => ?_
    subst hid
    refine (resolveCredential_alike _).bind fun value _ hv => ?_
    subst hv
    exact define_alike _ _
  | externalSecret p =>
    refine (resolveSecret_alike _).bind fun handle _ hh => ?_
    subst hh
    -- Both sides found the secret or neither did.
    cases handle with
    | some handle => exact define_alike _ _
    | none =>
      refine Program.Alike.get.bind fun d d' hd => ?_
      rw [hd.context.run]
      exact report_alike _

/-- What is done alike to each is done alike to all. -/
theorem each_alike {work : β → Program Desk BindingError Unit}
    (h : ∀ b, Program.Alike Alike Eq (work b) (work b)) (bs : List β) :
    Program.Alike Alike Eq (each work bs) (each work bs) := by
  induction bs with
  | nil => exact .pure rfl
  | cons b rest ih => exact (h b).andThen ih

/-- The declarations of a run are bound alike, whatever the secrets are. -/
theorem bindAll_alike (declarations : Declarations) :
    Program.Alike Alike Eq (bindAll declarations) (bindAll declarations) := by
  refine (each_alike bindWorkflow_alike _).andThen ?_
  refine (each_alike declareOutput_alike _).andThen ?_
  refine (each_alike bindSecret_alike _).andThen ?_
  refine (each_alike (fun p => onStore_alike _) _).andThen ?_
  refine Program.Alike.get.bind fun d d' hd => ?_
  rw [hd.context.run, hd.context.store, hd.context.vault.size_eq]
  exact report_alike _

end Desk

end RunParams
