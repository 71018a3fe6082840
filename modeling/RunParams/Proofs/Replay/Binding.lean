import RunParams.Proofs.Context.Keeping
import RunParams.Proofs.Replay.Programs

/-!
# Binding declarations repeats itself

What the binding of declarations comes to depends on nothing but the context, the ids that are drawn
and the answers of the stores: given these, it ends in the same way and leaves the same context
(`Desk.repeats_bindAll`). The contexts may have been created at different times, for the binding
does not look at the date of a context (`Context.dated`).

The proof goes up from the stores and the vault to the declarations.
-/

namespace RunParams

open Program

variable {α β : Type}

/-! ## The stores -/

namespace Surroundings

/-- Work on the surroundings repeats itself. Nothing in them is its own. -/
def Repeats (p : Program Surroundings BindingError α) : Prop :=
  p.Repeats id (fun _ => ()) Eq

/-- A report is made again. -/
theorem repeats_report (event : Event) : Repeats (report event) :=
  repeats_of_ended (·.logged [event]) (fun _ => .ok ()) (fun _ => rfl) (fun _ => ⟨rfl, rfl, rfl⟩)
    fun _ _ _ => ⟨rfl, rfl⟩

/-- A sleep ends in both runs. -/
theorem repeats_sleep (ticks : Nat) : Repeats (sleep ticks) := by
  by_cases hticks : ticks = 0
  · have hsleep : (sleep ticks : Program Surroundings BindingError Unit) = pure () :=
      funext fun _ => if_pos hticks
    rw [hsleep]
    exact repeats_pure ()
  · have hsleep : (sleep ticks : Program Surroundings BindingError Unit) =
        fun s => waitFor (.clock (s.clock + ticks)) s := funext fun _ => if_neg hticks
    rw [hsleep]
    exact repeats_waitFor _

/-- Asks the stores and does not wait. -/
def ask (q : Query) : Program Surroundings BindingError (Response q.Answer) := fun s =>
  .ended { s with asked := s.asked ++ [q] } (.ok (s.backend s.asked q))

/-- Asking the stores, and going on with the response. -/
theorem ask_bind (q : Query) (next : Response q.Answer → Program Surroundings BindingError α)
    (s : Surroundings) : (ask q >>= next) s =
      next (s.backend s.asked q) { s with asked := s.asked ++ [q] } := rfl

/-- Who asks the stores takes their answer. -/
theorem taken_asked (s : Surroundings) (q : Query) :
    s.taken { s with asked := s.asked ++ [q] } = ⟨[], [⟨q, s.backend s.asked q⟩], []⟩ := by
  unfold taken Draws.since
  rw [List.drop_left, Nat.sub_self]
  rfl

/-- Who asks the stores again gets the same response. -/
theorem repeats_ask (q : Query) : Repeats (ask q) := by
  refine ⟨fun s => ⟨.refl _, rfl, List.prefix_append _ _⟩, ?_⟩
  intro s s' took rest t r t' r' _ hgives hend hend'
  obtain ⟨rfl, rfl, rfl⟩ := Paused.Ends.of_ended (s := { s with asked := s.asked ++ [q] }) hend
  obtain ⟨rfl, rfl⟩ := Paused.CanEnd.of_ended (s := { s' with asked := s'.asked ++ [q] }) hend'
  have hgives' : s'.Gives (s.taken { s with asked := s.asked ++ [q] } ++ rest) := hgives
  rw [taken_asked] at hgives'
  obtain ⟨hids, hanswer, hanswers⟩ := hgives'
  exact ⟨congrArg Except.ok hanswer, rfl, hids, hanswers⟩

/-- A query is answered in the same way again, and as late. -/
theorem repeats_fetch (limit : Option Duration) (name : String) (q : Query) :
    Repeats (fetch limit name q) := by
  cases limit with
  | none =>
    have hfetch : fetch none name q = (ask q >>= fun response =>
        sleep response.latency.ticks >>= fun _ => .ofExcept response.result) := by
      funext s
      rw [ask_bind]
      rfl
    rw [hfetch]
    exact (repeats_ask q).bind fun response =>
      (repeats_sleep _).bind fun _ => repeats_ofExcept _
  | some limit =>
    have hfetch : fetch (some limit) name q = (ask q >>= fun response =>
        if response.latency.ticks ≤ limit.ticks then
          sleep response.latency.ticks >>= fun _ => .ofExcept response.result
        else sleep limit.ticks >>= fun _ => .fail (.fetchTimeout (describe name q) limit)) := by
      funext s
      rw [ask_bind]
      unfold fetch
      dsimp only
      split
      · rfl
      · rfl
    rw [hfetch]
    refine (repeats_ask q).bind fun response => ?_
    -- The answer carries its latency, so whether it is in time is the same both times.
    by_cases hlimit : response.latency.ticks ≤ limit.ticks
    · simp only [hlimit, if_true]
      exact (repeats_sleep _).bind fun _ => repeats_ofExcept _
    · simp only [hlimit, if_false]
      exact (repeats_sleep _).bind fun _ => repeats_fail _

/-- What is done with the row of a credential, or with the failure to get it. -/
def useRow (limit : Option Duration) (id organization : String) :
    Except BindingError (Option Credential) → Program Surroundings BindingError CredentialSecret
  | .error e => do
    report (.credentialFetchFailed id e)
    .fail e
  | .ok none => .fail (.credentialNotFound id)
  | .ok (some row) =>
    if row.organization ≠ organization then .fail (.credentialNotFound id)
    else match row.type with
      | .password => do
        match ← fetch limit id (.password row.id) with
        | none => .fail (.credentialNotFound id)
        | some secret => return .password secret
      | .creditCard => do
        match ← fetch limit id (.creditCard row.id) with
        | none => .fail (.credentialNotFound id)
        | some secret => return .creditCard secret
      | .unsupported => do
        report (.unsupportedCredential id)
        .fail (.credentialNotFound id)

/-- First the row of a credential is fetched, and then it is used. -/
theorem fetchCredential_eq (limit : Option Duration) (id organization : String) :
    fetchCredential limit id organization =
      (report (.fetchingCredential id organization) >>= fun _ =>
        (fetch limit id (.credential id organization)).attempt >>=
          useRow limit id organization) := by
  unfold fetchCredential
  congr 1
  funext _
  congr 1
  funext found
  cases found with
  | error e => rfl
  | ok row => cases row <;> rfl

/-- A row is used in the same way again. -/
theorem repeats_useRow (limit : Option Duration) (id organization : String)
    (found : Except BindingError (Option Credential)) :
    Repeats (useRow limit id organization found) := by
  cases found with
  | error e => exact (repeats_report _).bind fun _ => repeats_fail e
  | ok row =>
    cases row with
    | none => exact repeats_fail _
    | some row =>
      simp only [useRow]
      by_cases hforeign : row.organization ≠ organization
      · rw [if_pos hforeign]
        exact repeats_fail _
      · rw [if_neg hforeign]
        -- The row was an answer, so the same kind of secret is asked for again.
        cases row.type with
        | password =>
          refine (repeats_fetch limit id _).bind fun secret => ?_
          cases secret with
          | none => exact repeats_fail _
          | some secret => exact repeats_pure _
        | creditCard =>
          refine (repeats_fetch limit id _).bind fun secret => ?_
          cases secret with
          | none => exact repeats_fail _
          | some secret => exact repeats_pure _
        | unsupported => exact (repeats_report _).bind fun _ => repeats_fail _

/-- The secret of a credential is fetched in the same way again. -/
theorem repeats_fetchCredential (limit : Option Duration) (id organization : String) :
    Repeats (fetchCredential limit id organization) := by
  rw [fetchCredential_eq]
  exact (repeats_report _).bind fun _ => (repeats_fetch limit id _).attempt.bind fun found =>
    repeats_useRow limit id organization found

end Surroundings

/-! ## The vault -/

namespace Mint

/-- Work on a vault that, given the same ids, puts the same into it. -/
structure Repeats (work : StateM Mint α) : Prop where
  later : ∀ m : Mint, m.draws.Later (work m).2.draws
  repeats : ∀ (v : Vault) (d d' : Draws) (rest : List Uuid),
    d'.Gives (d.since (work ⟨v, d⟩).2.draws ++ rest) →
    (work ⟨v, d'⟩).1 = (work ⟨v, d⟩).1 ∧ (work ⟨v, d'⟩).2.vault = (work ⟨v, d⟩).2.vault ∧
      (work ⟨v, d'⟩).2.draws.Gives rest

/-- A value at hand is the same again. -/
theorem repeats_pure (a : α) : Repeats (pure a : StateM Mint α) := by
  refine ⟨fun m => .refl _, fun v d d' rest hgives => ⟨rfl, rfl, ?_⟩⟩
  have hnothing : d.since d = [] := by
    unfold Draws.since
    rw [Nat.sub_self]
    rfl
  change d'.Gives (d.since d ++ rest) at hgives
  rwa [hnothing] at hgives

/-- Work that goes on with the value of other work repeats itself if both do. -/
theorem Repeats.bind {work : StateM Mint α} {next : α → StateM Mint β} (hwork : Repeats work)
    (hnext : ∀ a, Repeats (next a)) : Repeats (work >>= next) := by
  refine ⟨fun m => (hwork.later m).trans ((hnext _).later _), fun v d d' rest hgives => ?_⟩
  -- The ids that are drawn are those of the first part and then those of the second.
  have hsince : d.since ((work >>= next) ⟨v, d⟩).2.draws = d.since (work ⟨v, d⟩).2.draws ++
      (work ⟨v, d⟩).2.draws.since (next (work ⟨v, d⟩).1 (work ⟨v, d⟩).2).2.draws :=
    Draws.since_append (hwork.later ⟨v, d⟩) ((hnext _).later _)
  rw [hsince, List.append_assoc] at hgives
  obtain ⟨hvalue, hvault, hleft⟩ := hwork.repeats v d d' _ hgives
  have hsecond := (hnext (work ⟨v, d⟩).1).repeats (work ⟨v, d⟩).2.vault _ _ _ hleft
  have hbind : (work >>= next) ⟨v, d'⟩ = next (work ⟨v, d⟩).1
      ⟨(work ⟨v, d⟩).2.vault, (work ⟨v, d'⟩).2.draws⟩ := by
    show next (work ⟨v, d'⟩).1 (work ⟨v, d'⟩).2 = _
    rw [hvalue, ← hvault]
  rw [hbind]
  exact hsecond

/-- A fresh handle is the same again when the same ids are drawn. -/
theorem freshHandle_gives (v : Vault) (field : Option String) (fuel : Nat) (d d' : Draws)
    (rest : List Uuid) (h : d'.Gives (d.since (freshHandle v field fuel d).2 ++ rest)) :
    (freshHandle v field fuel d').1 = (freshHandle v field fuel d).1 ∧
      (freshHandle v field fuel d').2.Gives rest := by
  have hone : d'.Gives (d.since d.draw.2 ++ rest) →
      d'.draw.1 = d.draw.1 ∧ d'.draw.2.Gives rest := by
    rw [Draws.since_one]
    exact id
  induction fuel generalizing d d' with
  | zero =>
    obtain ⟨hid, hrest⟩ := hone h
    exact ⟨congrArg (Vault.handle v.lead · field) hid, hrest⟩
  | succ fuel ih =>
    unfold freshHandle at h ⊢
    dsimp only at h ⊢
    by_cases htaken : v.contains (Vault.handle v.lead d.draw.1 field) = true
    · -- The first id is in vain both times.
      rw [if_pos htaken, Draws.since_draw (freshHandle_spec v field fuel d.draw.2).1] at h
      obtain ⟨hid, hrest⟩ := h
      rw [hid, if_pos htaken, if_pos htaken]
      refine ih d.draw.2 d'.draw.2 hrest ?_
      rw [Draws.since_one]
      exact id
    · -- The first id is good both times, and the rest of the supply is left as it is.
      rw [if_neg htaken] at h
      obtain ⟨hid, hrest⟩ := hone h
      rw [hid, if_neg htaken, if_neg htaken]
      exact ⟨rfl, hrest⟩

/-- A secret is kept under the same handle again. -/
theorem repeats_fresh (field : Option String) (secret : Secret) :
    Repeats (fresh field secret) := by
  refine ⟨fun m => (freshHandle_spec m.vault field m.vault.size m.draws).1, ?_⟩
  intro v d d' rest hgives
  obtain ⟨hhandle, hrest⟩ := freshHandle_gives v field v.size d d' rest hgives
  exact ⟨hhandle, congrArg (v.keep · secret) hhandle, hrest⟩

/-- The seed of a one-time password is kept under the same handle again. -/
theorem repeats_totp (seed : String) : Repeats (totp seed) := by
  have hkeep : ∀ handle, Repeats (modify fun m : Mint =>
      { m with vault := m.vault.keep (Vault.seedHandle handle) ⟨seed⟩ }) := by
    intro handle
    refine ⟨fun m => .refl _, fun v d d' rest hgives => ⟨rfl, rfl, ?_⟩⟩
    exact ((repeats_pure ()).repeats v d d' rest hgives).2.2
  exact (repeats_fresh _ _).bind fun handle => (hkeep handle).bind fun _ => repeats_pure handle

/-- The secrets of some fields are kept under the same handles again. -/
theorem repeats_fields (secrets : List (String × String)) : Repeats (fields secrets) := by
  induction secrets with
  | nil => exact repeats_pure []
  | cons first rest ih =>
    exact (repeats_fresh (some first.1) ⟨first.2⟩).bind fun _ => ih.bind fun _ => repeats_pure _

end Mint

/-- The fields of a credential are kept under the same handles again. -/
theorem CredentialSecret.repeats_mint (secret : CredentialSecret) : Mint.Repeats secret.mint := by
  cases secret with
  | creditCard card => exact Mint.repeats_fields card.fields
  | password secret =>
    refine (Mint.repeats_fields _).bind fun handles => ?_
    cases secret.seed? with
    | none => exact Mint.repeats_pure handles
    | some seed => exact (Mint.repeats_totp seed).bind fun _ => Mint.repeats_pure _

namespace Bench

/-- Work on a bench repeats itself when the vault is the same. -/
def Repeats (p : Program Bench BindingError α) : Prop := p.Repeats Bench.around Bench.vault Eq

/-- Work on the surroundings repeats itself. -/
theorem repeats_outside {p : Program Surroundings BindingError α}
    (hp : Surroundings.Repeats p) : Repeats (outside p) := by
  refine ⟨hp.keeps.within fun b around h => h, ?_⟩
  intro b b' took rest t r t' r' hvault hgives hend hend'
  change ((p b.around).within Bench.around (fun around b => { b with around }) b).Ends _ _ b took t
    r at hend
  change ((p b'.around).within Bench.around (fun around b => { b with around }) b').CanEnd _ t' r'
    at hend'
  -- Beside the stores there is only the vault, and no one else touches it.
  obtain ⟨s, whole, hinner, hwhole, rfl⟩ := hend.of_within Surroundings.meter
    (fun _ _ => () = ()) (fun c : Bench => c.vault = b.vault)
    (fun _ _ => rfl) (fun _ _ _ _ => rfl) (fun _ _ _ hc hkept => hkept.trans hc) rfl
  obtain ⟨s', whole', hinner', hwhole', rfl⟩ := hend'.of_within
    (fun s s' => () = () ∧ s.SameSupply s') (fun c : Bench => c.vault = b'.vault)
    (fun _ _ _ hkept => ⟨rfl, hkept.2⟩) (fun _ _ _ hc hkept => hkept.1.trans hc) rfl
  obtain ⟨hresult, -, hleft⟩ := hp.repeats b.around b'.around _ _ _ _ _ _ rfl hgives hinner hinner'
  exact ⟨hresult, hwhole.trans (hvault.trans hwhole'.symm), hleft⟩

/-- Secrets are put into the vault in the same way again. -/
theorem repeats_mint {work : StateM Mint α} (h : Mint.Repeats work) : Repeats (mint work) := by
  have htaken : ∀ (s : Surroundings) (d : Draws), s.taken { s with draws := d } =
      ⟨s.draws.since d, [], []⟩ := by
    intro s d
    unfold Surroundings.taken
    rw [List.drop_length]
    rfl
  refine ⟨fun b => ⟨h.later ⟨b.vault, b.around.draws⟩, rfl, List.prefix_refl _⟩, ?_⟩
  rintro ⟨v, s⟩ ⟨v', s'⟩ took rest t r t' r' hvault hgives hend hend'
  cases (hvault : v = v')
  obtain ⟨rfl, rfl, rfl⟩ := hend.of_ended
  obtain ⟨rfl, rfl⟩ := hend'.of_ended
  change s'.Gives (s.taken { s with draws := (work ⟨v, s.draws⟩).2.draws } ++ rest) at hgives
  rw [htaken] at hgives
  obtain ⟨hids, hanswers⟩ := hgives
  obtain ⟨hvalue, hkept, hleft⟩ := h.repeats v s.draws s'.draws rest.ids hids
  exact ⟨congrArg Except.ok hvalue, hkept.symm, hleft, hanswers⟩

/-- A credential is resolved into the same handles again. -/
theorem repeats_resolveCredential (limit : Option Duration) (id organization : String) :
    Repeats (resolveCredential limit id organization) :=
  (repeats_outside (Surroundings.repeats_fetchCredential limit id organization)).bind fun secret =>
    (repeats_mint secret.repeats_mint).bind fun _ => repeats_pure _

/-- An external secret is resolved into the same handle again. -/
theorem repeats_resolveSecret (limit : Option Duration) (key : String) :
    Repeats (resolveSecret limit key) := by
  refine (repeats_outside (Surroundings.repeats_fetch limit key _)).bind fun found => ?_
  cases found with
  | none => exact repeats_pure none
  | some secret =>
    exact (repeats_mint (Mint.repeats_fresh none ⟨secret⟩)).bind fun _ => repeats_pure _

end Bench

/-! ## Declarations -/

/-- The context with another date of creation. -/
def Context.dated (c : Context) (date : Nat) : Context := { c with createdAt := date }

namespace Desk

variable {date : Nat}

/-- Work on a desk repeats itself when the contexts differ at most in the date of their creation. -/
def Repeats (date : Nat) (p : Program Desk BindingError α) : Prop :=
  p.Repeats Desk.around Desk.context fun c c' => c' = c.dated date

/-- Work on the vault repeats itself. -/
theorem repeats_onVault {p : Program Bench BindingError α} (hp : Bench.Repeats p) :
    Repeats date (onVault p) := by
  refine ⟨hp.keeps.within fun d b h => h, ?_⟩
  rintro ⟨c, s⟩ ⟨c', s'⟩ took rest t r t' r' hcontext hgives hend hend'
  cases (hcontext : c' = c.dated date)
  let part (d : Desk) : Bench := ⟨d.context.vault, d.around⟩
  let replace (b : Bench) (d : Desk) : Desk := ⟨{ d.context with vault := b.vault }, b.around⟩
  change ((p ⟨c.vault, s⟩).within part replace ⟨c, s⟩).Ends _ _ ⟨c, s⟩ took t r at hend
  change ((p ⟨c.vault, s'⟩).within part replace ⟨c.dated date, s'⟩).CanEnd _ t' r' at hend'
  -- Others leave the context as the work has left it, so beside the vault it is still the same.
  obtain ⟨b, d, hinner, hd, rfl⟩ := hend.of_within (Surroundings.meter.on Bench.around)
    (fun b b' => b'.vault = b.vault)
    (fun d : Desk => ∀ v, { d.context with vault := v } = { c with vault := v })
    (fun _ _ => rfl) (fun _ _ _ hkept => congrArg Context.vault hkept)
    (fun _ _ _ hd hkept v => by rw [hkept]; exact hd v) fun _ => rfl
  obtain ⟨b', d', hinner', hd', rfl⟩ := hend'.of_within
    (fun b b' => b'.vault = b.vault ∧ b.around.SameSupply b'.around)
    (fun d : Desk => ∀ v, { d.context with vault := v } = { c.dated date with vault := v })
    (fun _ _ _ hkept => ⟨congrArg Context.vault hkept.1, hkept.2⟩)
    (fun _ _ _ hd hkept v => by rw [hkept.1]; exact hd v) fun _ => rfl
  obtain ⟨hresult, hvault, hleft⟩ :=
    hp.repeats ⟨c.vault, s⟩ ⟨c.vault, s'⟩ _ _ _ _ _ _ rfl hgives hinner hinner'
  refine ⟨hresult, ?_, hleft⟩
  show { d'.context with vault := b'.vault } = { d.context with vault := b.vault }.dated date
  rw [hd', hd, show b.vault = b'.vault from hvault]
  rfl

/-- Work on the store repeats itself. -/
theorem repeats_onStore (action : Action Store α) : Repeats date (onStore action) := by
  refine repeats_of_ended _ (fun d => (action d.context.store).result) (fun _ => rfl)
    (fun _ => ⟨rfl, rfl, rfl⟩) ?_
  rintro ⟨c, s⟩ ⟨c', s'⟩ hcontext
  cases (hcontext : c' = c.dated date)
  exact ⟨rfl, rfl⟩

/-- A report is made again. -/
theorem repeats_report (event : Event) : Repeats date (report event) :=
  repeats_of_ended _ (fun _ => .ok ()) (fun _ => rfl) (fun _ => ⟨rfl, rfl, rfl⟩)
    fun _ _ h => ⟨rfl, h⟩

/-- Work that looks at the context, but not at its date, repeats itself. -/
theorem repeats_look {next : Desk → Program Desk BindingError α}
    (hnext : ∀ d, Repeats date (next d))
    (hsame : ∀ c s s', next ⟨c.dated date, s'⟩ = next ⟨c, s⟩) :
    Repeats date (get >>= next) := by
  refine repeats_get_bind hnext ?_
  rintro ⟨c, s⟩ ⟨c', s'⟩ hcontext
  cases (hcontext : c' = c.dated date)
  exact hsame c s s'

/-- A credential is resolved in the same way again. -/
theorem repeats_resolveCredential (id : String) : Repeats date (resolveCredential id) :=
  repeats_look (fun _ => repeats_onVault (Bench.repeats_resolveCredential _ id _))
    fun _ _ _ => rfl

/-- An external secret is resolved in the same way again. -/
theorem repeats_resolveSecret (key : String) : Repeats date (resolveSecret key) :=
  repeats_look (fun _ => repeats_onVault (Bench.repeats_resolveSecret _ key)) fun _ _ _ => rfl

/-- A parameter is defined together with its value again. -/
theorem repeats_define (p : Parameter) (value : Json) : Repeats date (define p value) :=
  repeats_onStore _

/-- A workflow parameter is given its value in the same way again. -/
theorem repeats_defineWorkflow (b : WorkflowBinding) : Repeats date (defineWorkflow b) := by
  unfold defineWorkflow
  by_cases htype : b.parameter.type = .credentialId
  · rw [if_pos htype]
    cases b.value.text? with
    | none => exact repeats_fail _
    | some id => exact (repeats_resolveCredential id).bind fun value => repeats_define _ value
  · rw [if_neg htype]
    exact repeats_define _ b.value

/-- A workflow parameter is bound in the same way again. -/
theorem repeats_bindWorkflow (b : WorkflowBinding) : Repeats date (bindWorkflow b) := by
  refine repeats_look (fun d => ?_) fun _ _ _ => rfl
  by_cases hdefined : d.context.store.isDefined b.parameter.key = true
  · simp only [hdefined, if_true]
    exact (repeats_report _).bind fun _ => repeats_defineWorkflow b
  · simp only [hdefined]
    exact repeats_defineWorkflow b

/-- An output parameter is declared in the same way again. -/
theorem repeats_declareOutput (p : OutputParameter) : Repeats date (declareOutput p) := by
  refine repeats_look (fun d => ?_) fun _ _ _ => rfl
  by_cases hdefined : d.context.store.isDefined p.key = true
  · simp only [hdefined, if_true]
    exact (repeats_report _).bind fun _ => repeats_fail _
  · simp only [hdefined]
    exact repeats_onStore _

/-- A secret parameter is bound in the same way again. -/
theorem repeats_bindSecret (p : SecretParameter) : Repeats date (bindSecret p) := by
  cases p with
  | credential p =>
    refine repeats_look (fun d => ?_) fun _ _ _ => rfl
    refine (repeats_onStore _).bind fun id => (repeats_resolveCredential id).bind fun value => ?_
    exact repeats_define _ value
  | externalSecret p =>
    refine (repeats_resolveSecret p.secretKey).bind fun found => ?_
    cases found with
    | some handle => exact repeats_define _ (.text handle)
    | none => exact repeats_look (fun _ => repeats_report _) fun _ _ _ => rfl

/-- One declaration after another is bound in the same way again if each is. -/
theorem repeats_each {work : β → Program Desk BindingError Unit}
    (h : ∀ b, Repeats date (work b)) (declared : List β) : Repeats date (each work declared) := by
  induction declared with
  | nil => exact repeats_pure ()
  | cons b rest ih => exact (h b).bind fun _ => ih

/-- Binding the declarations of a run comes to the same again, in a context that may have another
date, when the same ids are drawn and the stores give the same answers. -/
theorem repeats_bindAll (declarations : Declarations) : Repeats date (bindAll declarations) := by
  refine (repeats_each repeats_bindWorkflow _).bind fun _ => ?_
  refine (repeats_each repeats_declareOutput _).bind fun _ => ?_
  refine (repeats_each repeats_bindSecret _).bind fun _ => ?_
  refine (repeats_each (fun _ => repeats_onStore _) _).bind fun _ => ?_
  exact repeats_look (fun _ => repeats_report _) fun _ _ _ => rfl

end Desk

end RunParams
