import RunParams.Proofs.Declarations.Errors
import RunParams.Proofs.Replay.Binding

/-!
# From the answers of the stores to a secret

What fetching something comes to is told by the response of the stores alone: it brings what is
there in time (`Response.Brings`), and otherwise there is an error (`Response.outcome`).

A credential takes two responses, the second of which may come much later than the first. Nothing is
believed of them: the row may be one of another organization or with another id, and then it is the
row's own id under which the secret is asked for (`Response.Refers`). So a secret is found just when
the responses lead to one (`CredentialSecret.Leads`), and `Surroundings.of_fetchCredential` says
that fetching a credential comes to that, whatever others do in the meantime.
-/

namespace RunParams

open Surroundings (describe)

/-! ## One response -/

namespace Response

variable {α : Type}

/-- What waiting for a response comes to. -/
def outcome (response : Response α) (limit : Option Duration) (asked : String) :
    Except BindingError α :=
  match limit with
  | none => response.result
  | some limit =>
    if response.latency.ticks ≤ limit.ticks then response.result
    else .error (.fetchTimeout asked limit)

/-- A response is not a failure, and it is there in time. -/
def Brings (response : Response α) (limit : Option Duration) (answer : α) : Prop :=
  response.result = .ok answer ∧ ∀ most, limit = some most → response.latency.ticks ≤ most.ticks

/-- Waiting for a response succeeds just when it brings something. -/
theorem outcome_eq_ok_iff {response : Response α} {limit : Option Duration} {asked : String}
    {answer : α} : response.outcome limit asked = .ok answer ↔ response.Brings limit answer := by
  -- Without a limit all responses are in time.
  cases limit with
  | none => exact ⟨fun h => ⟨h, nofun⟩, fun h => h.1⟩
  | some most =>
    unfold outcome Brings
    by_cases hintime : response.latency.ticks ≤ most.ticks
    · simp only [hintime, if_true, Option.some.injEq]
      exact ⟨fun h => ⟨h, fun _ hmost => hmost ▸ hintime⟩, fun h => h.1⟩
    · simp only [hintime, if_false]
      exact ⟨nofun, fun h => absurd (h.2 most rfl) hintime⟩

end Response

/-! ## The responses for a credential -/

/-- What is asked for the secret of a credential, by its own id. -/
def Credential.secretQuery? (c : Credential) : Option Query :=
  match c.type with
  | .password => some (.password c.id)
  | .creditCard => some (.creditCard c.id)
  | .unsupported => none

/-- What is asked for next when a row has been asked for. -/
def Credential.wanted (organization : String) :
    Except BindingError (Option Credential) → Option Query
  | .ok (some c) => if c.organization = organization then c.secretQuery? else none
  | .ok none | .error _ => none

/-- A response brings the row of a credential that belongs to an organization and is of a type that
has secrets, which are asked for with a query. -/
def Response.Refers (row : Response (Option Credential)) (limit : Option Duration)
    (organization : String) (q : Query) : Prop :=
  ∃ c, row.Brings limit (some c) ∧ c.organization = organization ∧ c.secretQuery? = some q

/-- A response refers to what is asked for next. -/
theorem Response.refers_iff {row : Response (Option Credential)} {limit : Option Duration}
    {organization : String} {q : Query} (asked : String) :
    row.Refers limit organization q ↔
      Credential.wanted organization (row.outcome limit asked) = some q := by
  constructor
  · -- A response that brings a row of the organization refers to the secret of this row.
    rintro ⟨c, hbrings, howner, hquery⟩
    rw [Response.outcome_eq_ok_iff.mpr hbrings]
    exact (if_pos howner).trans hquery
  · -- And only such a response does: no row and a failure refer to nothing.
    intro h
    match hrow : row.outcome limit asked with
    | .error e => simp [hrow, Credential.wanted] at h
    | .ok none => simp [hrow, Credential.wanted] at h
    | .ok (some c) =>
      simp only [hrow, Credential.wanted, Option.ite_none_right_eq_some] at h
      exact ⟨c, Response.outcome_eq_ok_iff.mp hrow, h.1, h.2⟩

namespace CredentialSecret

variable {limit : Option Duration} {id organization : String}
  {row : Response (Option Credential)} {later : (q : Query) → Response q.Answer}

/-- A response for the row of a credential, and a later one for the secret of that row, bring a
secret that may be used. -/
inductive Leads (limit : Option Duration) (organization : String)
    (row : Response (Option Credential)) (later : (q : Query) → Response q.Answer) :
    CredentialSecret → Prop
  | password {own : String} {secret : PasswordSecret}
    (hrow : row.Refers limit organization (.password own))
    (hsecret : (later (.password own)).Brings limit (some secret)) :
    Leads limit organization row later (.password secret)
  | creditCard {own : String} {secret : CreditCardSecret}
    (hrow : row.Refers limit organization (.creditCard own))
    (hsecret : (later (.creditCard own)).Brings limit (some secret)) :
    Leads limit organization row later (.creditCard secret)

/-- What the response for a secret comes to when the secret of a credential is wanted. -/
def received {α : Type} (id : String) (secretOf : α → CredentialSecret) :
    Except BindingError (Option α) → Except BindingError CredentialSecret
  | .error e => .error e
  | .ok none => .error (.credentialNotFound id)
  | .ok (some found) => .ok (secretOf found)

/-- What the row of a credential comes to, or the failure to get it, when there is a later response
for its secret. -/
def behind (limit : Option Duration) (id organization : String)
    (later : (q : Query) → Response q.Answer) :
    Except BindingError (Option Credential) → Except BindingError CredentialSecret
  | .error e => .error e
  | .ok none => .error (.credentialNotFound id)
  | .ok (some c) =>
    if c.organization ≠ organization then .error (.credentialNotFound id)
    else match c.type with
      | .password =>
        received id .password
          ((later (.password c.id)).outcome limit (describe id (.password c.id)))
      | .creditCard =>
        received id .creditCard
          ((later (.creditCard c.id)).outcome limit (describe id (.creditCard c.id)))
      | .unsupported => .error (.credentialNotFound id)

/-- What the two responses come to. -/
def outcome (limit : Option Duration) (id organization : String)
    (row : Response (Option Credential)) (later : (q : Query) → Response q.Answer) :
    Except BindingError CredentialSecret :=
  behind limit id organization later
    (row.outcome limit (describe id (.credential id organization)))

/-- A failure to get a secret is passed on. -/
theorem bind_received {α : Type} {secretOf : α → CredentialSecret}
    (r : Except BindingError (Option α)) :
    (r.bind fun found => received id secretOf (.ok found)) = received id secretOf r := by
  cases r <;> rfl

/-- A response for a secret comes to one just when it has one. -/
theorem received_eq_ok_iff {α : Type} {secretOf : α → CredentialSecret}
    {r : Except BindingError (Option α)} {secret : CredentialSecret} :
    received id secretOf r = .ok secret ↔
      ∃ found, r = .ok (some found) ∧ secretOf found = secret := by
  unfold received
  constructor
  · -- A missing secret and a failure are no success.
    intro h
    match r with
    | .ok (some found) => exact ⟨found, rfl, Except.ok.inj h⟩
  · rintro ⟨found, rfl, rfl⟩
    rfl

/-- The two responses come to a secret just when they lead to it. -/
theorem outcome_eq_ok_iff {secret : CredentialSecret} :
    outcome limit id organization row later = .ok secret ↔
      Leads limit organization row later secret := by
  unfold outcome behind
  constructor
  · -- From a success back: the row was brought, it is of the organization, and it has a type with a
    -- secret, which was brought as well.
    intro h
    match hrow : row.outcome limit (describe id (.credential id organization)) with
    | .error e => simp [hrow] at h
    | .ok none => simp [hrow] at h
    | .ok (some c) =>
      simp only [hrow, ne_eq, ite_not] at h
      have hbrings := Response.outcome_eq_ok_iff.mp hrow
      by_cases hown : c.organization = organization
      · rw [if_pos hown] at h
        have hrefers : ∀ q, c.secretQuery? = some q → row.Refers limit organization q :=
          fun q hq => ⟨c, hbrings, hown, hq⟩
        unfold Credential.secretQuery? at hrefers
        cases htype : c.type with
        | password =>
          rw [htype] at h hrefers
          obtain ⟨found, hfound, rfl⟩ := received_eq_ok_iff.mp h
          exact .password (hrefers _ rfl) (Response.outcome_eq_ok_iff.mp hfound)
        | creditCard =>
          rw [htype] at h hrefers
          obtain ⟨found, hfound, rfl⟩ := received_eq_ok_iff.mp h
          exact .creditCard (hrefers _ rfl) (Response.outcome_eq_ok_iff.mp hfound)
        | unsupported =>
          rw [htype] at h
          cases h
      · -- A row of another organization counts as missing.
        rw [if_neg hown] at h
        cases h
  · -- The other way there is one case for each type of credential, and both go alike.
    rintro (⟨⟨c, hbrings, rfl, hquery⟩, hsecret⟩ | ⟨⟨c, hbrings, rfl, hquery⟩, hsecret⟩)
    all_goals
      rw [Response.outcome_eq_ok_iff.mpr hbrings]
      unfold Credential.secretQuery? at hquery
      cases htype : c.type <;> rw [htype] at hquery <;> cases hquery
      simp only [ne_eq, not_true_eq_false, if_false, htype]
      exact received_eq_ok_iff.mpr ⟨_, Response.outcome_eq_ok_iff.mpr hsecret, rfl⟩

end CredentialSecret

/-! ## Fetching -/

namespace Surroundings

variable {β : Type} {limit : Option Duration} {name : String} {q : Query}
  {start s t : Surroundings} {took : Takings}

/-- Sleeping takes nothing and leaves the stores in place. -/
theorem of_sleep_bind {ticks : Nat} {result r : Except BindingError β}
    (h : ((sleep ticks >>= fun _ => Program.ofExcept result :
      Program Surroundings BindingError β) s).Ends meter SameBackend start took t r) :
    took = meter.taken start s ∧ r = result ∧ t.backend = s.backend := by
  have hbind : ((sleep ticks >>= fun _ => Program.ofExcept result :
      Program Surroundings BindingError β) s) =
      (sleep ticks s).bind fun _ s' => .ended s' result := rfl
  rw [hbind] at h
  unfold sleep at h
  -- To sleep for no time is not to wait.
  by_cases hzero : ticks = 0
  · rw [if_pos hzero] at h
    obtain ⟨rfl, rfl, rfl⟩ := Paused.Ends.of_ended (s := s) h
    exact ⟨rfl, rfl, rfl⟩
  · rw [if_neg hzero] at h
    cases h with
    | waiting found rest =>
      obtain ⟨rfl, rfl, rfl⟩ := Paused.Ends.of_ended rest
      rw [Meter.taken_self, Takings.append_none]
      exact ⟨rfl, rfl, found⟩

/-- Fetching something takes one answer and comes to what the response does. -/
theorem of_fetch {r : Except BindingError q.Answer}
    (h : (fetch limit name q s).Ends meter SameBackend s took t r) :
    took = ⟨[], [⟨q, s.backend s.asked q⟩], []⟩ ∧
      r = (s.backend s.asked q).outcome limit (describe name q) ∧ t.backend = s.backend := by
  rw [← taken_asked]
  unfold fetch at h
  unfold Response.outcome
  -- The response is late or in time, and if it is late, the wait is as long as the limit.
  cases limit with
  | none => exact of_sleep_bind h
  | some most =>
    by_cases hintime : (s.backend s.asked q).latency.ticks ≤ most.ticks
    · simp only [hintime, if_true] at h ⊢
      exact of_sleep_bind h
    · simp only [hintime, if_false] at h ⊢
      exact of_sleep_bind h

/-- A fetch takes things in their order. -/
theorem keepsTo_later_fetch (limit : Option Duration) (name : String) (q : Query) :
    (fetch limit name q).KeepsTo meter.later :=
  (repeats_fetch limit name q).keeps

/-- Fetching something and judging it at once. -/
theorem of_fetch_bind {f : q.Answer → Except BindingError β} {r : Except BindingError β}
    {next : q.Answer → Program Surroundings BindingError β}
    (hnext : ∀ a, next a = Program.ofExcept (f a))
    (h : ((fetch limit name q >>= next) s).Ends meter SameBackend s took t r) :
    r = ((s.backend s.asked q).outcome limit (describe name q)).bind f ∧
      took = ⟨[], [⟨q, s.backend s.asked q⟩], []⟩ := by
  have hjudge : ∀ a u, (next a u).KeepsTo meter.later u := by
    intro a u
    rw [hnext]
    exact Later.refl u
  -- The fetch has brought an answer, on which something is computed, or it has failed.
  rcases Paused.Ends.of_bind (keepsTo_later_fetch limit name q s) hjudge h with
    ⟨u, a, first, rest, rfl, hfetch, hend⟩ | ⟨e, rfl, hfetch⟩
  · obtain ⟨rfl, hfetched, -⟩ := of_fetch hfetch
    rw [hnext] at hend
    obtain ⟨rfl, rfl, rfl⟩ := Paused.Ends.of_ended hend
    rw [Meter.taken_self, Takings.append_none, ← hfetched]
    exact ⟨rfl, rfl⟩
  · obtain ⟨rfl, hfetched, -⟩ := of_fetch hfetch
    rw [← hfetched]
    exact ⟨rfl, rfl⟩

/-- A row that is used comes to what it does with the response for its secret, if that is asked for.
-/
theorem of_useRow {id organization : String} {found : Except BindingError (Option Credential)}
    {r : Except BindingError CredentialSecret}
    (h : (useRow limit id organization found s).Ends meter SameBackend s took t r) :
    r = CredentialSecret.behind limit id organization (s.backend s.asked) found ∧ took.ids = [] ∧
      took.answers = ((Credential.wanted organization found).map fun q =>
        ⟨q, s.backend s.asked q⟩).toList := by
  have hnothing : ∀ s' : Surroundings, s.SameSupply s' →
      (meter.taken s s').ids = [] ∧ (meter.taken s s').answers = [] := by
    intro s' hsupply
    rw [show meter.taken s s' = .none from hsupply.taken]
    exact ⟨rfl, rfl⟩
  -- Without a row of the organization nothing more is asked.
  match found with
  | .error e =>
    obtain ⟨rfl, rfl, rfl⟩ := Paused.Ends.of_ended h
    exact ⟨rfl, hnothing _ ⟨rfl, rfl, rfl⟩⟩
  | .ok none =>
    obtain ⟨rfl, rfl, rfl⟩ := Paused.Ends.of_ended h
    exact ⟨rfl, hnothing _ ⟨rfl, rfl, rfl⟩⟩
  | .ok (some c) =>
    simp only [useRow] at h
    simp only [CredentialSecret.behind, Credential.wanted, Credential.secretQuery?]
    by_cases howner : c.organization = organization
    · rw [if_neg (not_not.mpr howner)] at h
      rw [if_neg (not_not.mpr howner), if_pos howner]
      -- The type of the row says which secret is asked for, if any.
      cases htype : c.type with
      | password =>
        rw [htype] at h
        obtain ⟨hr, rfl⟩ := of_fetch_bind (q := .password c.id)
          (f := fun found => CredentialSecret.received id .password (.ok found))
          (fun found => by cases found <;> rfl) h
        exact ⟨hr.trans (CredentialSecret.bind_received _), rfl, rfl⟩
      | creditCard =>
        rw [htype] at h
        obtain ⟨hr, rfl⟩ := of_fetch_bind (q := .creditCard c.id)
          (f := fun found => CredentialSecret.received id .creditCard (.ok found))
          (fun found => by cases found <;> rfl) h
        exact ⟨hr.trans (CredentialSecret.bind_received _), rfl, rfl⟩
      | unsupported =>
        rw [htype] at h
        obtain ⟨rfl, rfl, rfl⟩ := Paused.Ends.of_ended h
        exact ⟨rfl, hnothing _ ⟨rfl, rfl, rfl⟩⟩
    · -- A row of another organization is dropped without asking for its secret.
      rw [if_pos howner] at h
      rw [if_pos howner, if_neg howner]
      obtain ⟨rfl, rfl, rfl⟩ := Paused.Ends.of_ended h
      exact ⟨rfl, hnothing _ ⟨rfl, rfl, rfl⟩⟩

/-- Fetching the secret of a credential comes to what the responses of the stores do: one for its
row, and if that row refers to a secret, a later one for that. No ids are drawn. -/
theorem of_fetchCredential {id organization : String} {r : Except BindingError CredentialSecret}
    (h : (fetchCredential limit id organization s).Ends meter SameBackend s took t r) :
    ∃ asked,
      r = CredentialSecret.outcome limit id organization
        (s.backend s.asked (.credential id organization)) (s.backend asked) ∧
      took.ids = [] ∧
      ((∀ q, ¬ (s.backend s.asked (.credential id organization)).Refers limit organization q) →
        took.answers = [⟨_, s.backend s.asked (.credential id organization)⟩]) ∧
      ∀ q, (s.backend s.asked (.credential id organization)).Refers limit organization q →
        took.answers = [⟨_, s.backend s.asked (.credential id organization)⟩,
          ⟨q, s.backend asked q⟩] := by
  rw [fetchCredential_eq] at h
  have huse := repeats_useRow limit id organization
  have hrow : Repeats (fetch limit id (.credential id organization)).attempt :=
    (repeats_fetch limit id (.credential id organization)).attempt
  have hreport := repeats_report (.fetchingCredential id organization)
  -- The report ends at once and cannot fail.
  -- The fetch of the row may fail, but what comes of it is dealt with afterwards.
  rcases Paused.Ends.of_bind (hreport.keeps s) (fun _ => (hrow.bind huse).keeps) h with
    ⟨s', _, first, rest, htook, hfirst, h⟩ | ⟨e, rfl, hfirst⟩
  · obtain ⟨htaken, hs', -⟩ := Paused.Ends.of_ended hfirst
    have hsupply : s.SameSupply s' := hs' ▸ ⟨rfl, rfl, rfl⟩
    have hnothing : first = .none := htaken.trans (SameSupply.taken ⟨rfl, rfl, rfl⟩)
    rw [hnothing, Takings.none_append] at htook
    subst htook
    rcases Paused.Ends.of_bind (hrow.keeps s') (fun found => (huse found).keeps) h with
      ⟨u, found, first, second, rfl, hattempt, hused⟩ | ⟨e, -, hattempt⟩
    · obtain ⟨fetched, hfound, hfetch⟩ := Paused.Ends.of_attempt hattempt
      cases hfound
      obtain ⟨rfl, rfl, hbackend⟩ := of_fetch hfetch
      obtain ⟨hr, hids, hanswers⟩ := of_useRow hused
      rw [hbackend] at hr hanswers
      rw [hsupply.backend, hsupply.asked] at hr hanswers ⊢
      let answersTo (wanted : Option Query) : List Answered :=
        (wanted.map fun q => ⟨q, s.backend u.asked q⟩).toList
      have hrefers : ∀ {q}, (s.backend s.asked (.credential id organization)).Refers limit
          organization q ↔ Credential.wanted organization _ = some q :=
        fun {q} => Response.refers_iff (describe id (.credential id organization))
      -- The row decides: it refers to no secret, and it stays with the one answer, or it refers to
      -- one, and the answer on this one follows.
      refine ⟨u.asked, hr, hids, fun hnone => ?_, fun q hq => ?_⟩
      · have hwanted := Option.eq_none_iff_forall_ne_some.mpr fun q hq => hnone q (hrefers.mpr hq)
        exact congrArg (List.cons _) (hanswers.trans (congrArg answersTo hwanted))
      · exact congrArg (List.cons _) (hanswers.trans (congrArg answersTo (hrefers.mp hq)))
    · obtain ⟨fetched, hfound, -⟩ := Paused.Ends.of_attempt hattempt
      cases hfound
  · obtain ⟨-, -, hr⟩ := Paused.Ends.of_ended hfirst
    cases hr

end Surroundings

end RunParams
