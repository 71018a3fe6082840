import RunParams.Proofs.Latency.Paces

/-!
# Binding declarations with stores that take their time

However long a store in memory takes, it answers the same. So the fetches that are made when
declarations are bound, what the context is like at each of them, and what the binding comes to in
the end do not depend on the pace (`Desk.hasRoute_bindAll`), as long as nobody else draws ids or
touches the context. A route says all this of some work and the state from which it starts.

Binding with a limit therefore comes to the same as binding with a store that takes no time and
without a limit, unless a fetch takes longer than the limit. The first one that does ends the
binding, in the state in which the other binding makes this fetch.

The proof goes up from the stores and the vault to the declarations.
-/

namespace RunParams

open Surroundings (describe)

variable {α β : Type} {m : Memory}

/-- Every query has the answer that a store in memory has, sooner or later. -/
def Backend.AnswersAs (b : Backend) (m : Memory) : Prop :=
  ∀ asked q, (b asked q).result = .ok (m.answer q)

/-! ## The names of fetches -/

/-- The credential whose row a query asks for. -/
def Query.credential? : Query → Option String
  | .credential id _ => some id
  | .password _ | .creditCard _ | .secret _ => none

/-- What an error calls that which is asked for, after some earlier queries of the same run. The
secret of a credential goes by the id under which the row of the credential was asked for. -/
def Query.called (earlier : List Query) : Query → String
  | .credential id _ => id
  | .secret key => key
  | .password _ | .creditCard _ => (earlier.filterMap Query.credential?).getLastD ""

/-- The fetches have the names by which errors call them. -/
def WellNamed {κ : Type} : List Query → List (Fetch κ) → Prop
  | _, [] => True
  | earlier, f :: rest => f.name = f.query.called earlier ∧ WellNamed (earlier ++ [f.query]) rest

section WellNamed

variable {κ ν : Type} {earlier : List Query} {xs ys : List (Fetch κ)}

/-- Fetches after others have the right names when these are among the earlier ones. -/
theorem wellNamed_append :
    WellNamed earlier (xs ++ ys) ↔
      WellNamed earlier xs ∧ WellNamed (earlier ++ xs.map Fetch.query) ys := by
  induction xs generalizing earlier with
  | nil =>
    rw [List.map_nil, List.append_nil]
    exact ⟨fun h => ⟨trivial, h⟩, fun h => h.2⟩
  | cons f rest ih =>
    have hcons : earlier ++ (f :: rest).map Fetch.query =
        earlier ++ [f.query] ++ rest.map Fetch.query :=
      (List.append_assoc earlier [f.query] _).symm
    rw [hcons]
    -- The head asks both lists the same; what the rest was called after has grown by it.
    show _ ∧ WellNamed _ (rest ++ ys) ↔ (_ ∧ WellNamed _ rest) ∧ _
    rw [ih, and_assoc]

/-- The fetches of a part have the same names in the whole. -/
theorem WellNamed.map (h : WellNamed earlier xs) (lift : κ → ν) :
    WellNamed earlier (xs.map (Fetch.map lift)) := by
  induction xs generalizing earlier with
  | nil => trivial
  | cons f rest ih => exact ⟨h.1, ih h.2⟩

end WellNamed

/-! ## Routes -/

/-- What some work comes to, at whatever pace. -/
structure Route (κ α : Type) where
  fetches : List (Fetch κ)
  /-- What the run has in the end, unless it ends at a fetch. -/
  last : κ
  result : Except BindingError α

namespace Program

variable {σ τ κ ν : Type} {pace : Option Duration → Backend → Pace σ κ}
  {p : Option Duration → Program σ BindingError α}
  {next : Option Duration → α → Program σ BindingError β} {start last : κ}
  {result : Except BindingError α} {since : List Query}

/-- When the stores answer as `m` does, the work takes the same route at every pace, if the run has
something at the start and some queries have been made just before. It may be told the limit. -/
def HasRouteAfter (since : List Query) (m : Memory)
    (pace : Option Duration → Backend → Pace σ κ) (p : Option Duration → Program σ BindingError α)
    (start : κ) : Prop :=
  ∃ route : Route κ α, (∀ earlier, WellNamed (earlier ++ since) route.fetches) ∧
    ∀ limit b, b.AnswersAs m → ∀ s, (pace limit b).Stands start s →
      (p limit s).Enacts (pace limit b) route.last route.result route.fetches
        ((pace limit b).asked s)

/-- The work takes the same route at every pace, whatever queries have been made before. -/
def HasRoute (m : Memory) (pace : Option Duration → Backend → Pace σ κ)
    (p : Option Duration → Program σ BindingError α) (start : κ) : Prop :=
  HasRouteAfter [] m pace p start

/-- Work that ends at once has a route without fetches. -/
theorem hasRoute_of_ended (last : κ) (result : Except BindingError α)
    (h : ∀ limit b s, (pace limit b).Stands start s → ∃ t, p limit s = .ended t result ∧
      (pace limit b).Stands last t ∧ (pace limit b).asked t = (pace limit b).asked s) :
    HasRouteAfter since m pace p start :=
  ⟨⟨[], last, result⟩, fun _ => trivial, fun limit b _ s hstands => h limit b s hstands⟩

/-- A result at hand is there at once. -/
theorem hasRoute_ofExcept (result : Except BindingError α) :
    HasRouteAfter since m pace (fun _ => ofExcept result) start :=
  hasRoute_of_ended start result fun _ _ s hstands => ⟨s, rfl, hstands, rfl⟩

/-- A value at hand is there at once. -/
theorem hasRoute_pure (a : α) : HasRouteAfter since m pace (fun _ => pure a) start :=
  hasRoute_ofExcept (.ok a)

/-- A failure is there at once. -/
theorem hasRoute_fail (e : BindingError) :
    HasRouteAfter since m pace (fun _ => (fail e : Program σ BindingError α)) start :=
  hasRoute_ofExcept (.error e)

/-- Work that is made up of two parts takes the route of the first and then that of the second. -/
theorem HasRouteAfter.bind (hp : HasRouteAfter since m pace p start)
    (hnext : ∀ a start, HasRoute m pace (fun limit => next limit a) start) :
    HasRouteAfter since m pace (fun limit => p limit >>= next limit) start := by
  -- The route of the first part is fixed before limit and answers are chosen, so its result may be
  -- looked at here.
  obtain ⟨⟨fetches, mid, result⟩, hnamed, hgoes⟩ := hp
  cases result with
  -- Nothing is fetched after an error, at no pace.
  | error e =>
    refine ⟨⟨fetches, mid, .error e⟩, hnamed, fun limit b hb s hstands => ?_⟩
    exact (hgoes limit b hb s hstands).bind_error
  | ok a =>
    obtain ⟨⟨later, last, result⟩, hnamed', hgoes'⟩ := hnext a mid
    refine ⟨⟨fetches ++ later, last, result⟩, fun earlier => ?_, fun limit b hb s hstands => ?_⟩
    · have hlater := hnamed' (earlier ++ since ++ fetches.map Fetch.query)
      rw [List.append_nil] at hlater
      exact wellNamed_append.mpr ⟨hnamed earlier, hlater⟩
    · exact (hgoes limit b hb s hstands).bind (hgoes' limit b hb)

/-- Work on a part of a state takes the route that it takes on the part alone. -/
theorem HasRoute.within (hp : HasRoute m pace p start)
    (outer : Option Duration → Backend → Pace τ ν) {part : τ → σ} {replace : σ → τ → τ}
    (lift : κ → ν) (frame : Option Duration → τ → Prop)
    (hembeds : ∀ limit b, (pace limit b).Embeds (outer limit b) part replace lift (frame limit)) :
    HasRoute m outer (fun limit => (p limit).within part replace) (lift start) := by
  obtain ⟨⟨fetches, last, result⟩, hnamed, hgoes⟩ := hp
  refine ⟨⟨fetches.map (Fetch.map lift), lift last, result⟩,
    fun earlier => (hnamed earlier).map lift, fun limit b hb t hstands => ?_⟩
  obtain ⟨hpart, hframe, hasked⟩ := (hembeds limit b).found start t hstands
  rw [← hasked]
  exact (hgoes limit b hb (part t) hpart).within (hembeds limit b) hframe

end Program

open Program

/-! ## The stores -/

namespace Surroundings

variable {limit : Option Duration} {b : Backend} {own last : Draws} {s : Surroundings} {q : Query}

/-- The pace of work on surroundings, of which only the ids are its own. -/
def pace (limit : Option Duration) (b : Backend) : Pace Surroundings Draws where
  limit := limit
  backend := b
  own := draws
  asked := asked
  fits := fun s => s.backend = b

/-- Whoever makes the failure of a fetch a value, but passes it on at once, goes on with the answer.
-/
theorem enacts_attempt_fetch (name : String) (q : Query)
    {next : Except BindingError q.Answer → Program Surroundings BindingError α}
    {r : Except BindingError α} {later : List (Fetch Draws)} (hb : b.AnswersAs m)
    (hstands : (pace limit b).Stands own s)
    (hok : ∀ t, (pace limit b).Stands own t →
      (next (.ok (m.answer q)) t).Enacts (pace limit b) last r later t.asked)
    (herror : ∀ e t, (pace limit b).Stands own t →
      ∃ u, next (.error e) t = .ended u (.error e) ∧ (pace limit b).Stands own u) :
    (((fetch limit name q).attempt >>= next) s).Enacts (pace limit b) last r
      (⟨name, q, own⟩ :: later) s.asked := by
  let f : Fetch Draws := ⟨name, q, own⟩
  -- What is made of the response, after the wait if there is one.
  have htakes : ∀ t, (pace limit b).Stands own t →
      (pace limit b).Takes f ((pace limit b).outcome s.asked f)
        (Paused.Enacts (pace limit b) last r later t.asked)
        (next ((pace limit b).outcome s.asked f) t) := by
    intro t ht
    cases houtcome : (pace limit b).outcome s.asked f with
    | ok answer =>
      have hanswer : (b s.asked q).result = .ok answer := (Response.outcome_eq_ok_iff.mp houtcome).1
      rw [hb] at hanswer
      cases hanswer
      exact hok t ht
    | error e => exact herror e t ht
  have hfetch : ((fetch limit name q).attempt >>= next) s =
      ((sleep ((pace limit b).stay s.asked q) >>= fun _ =>
        ofExcept ((pace limit b).outcome s.asked f))
          { s with asked := s.asked ++ [q] }).attempt.bind next := by
    show (fetch limit name q s).attempt.bind next = _
    rw [fetch_eq, hstands.1]
    rfl
  show (pace limit b).Fetches f _ s.asked _
  rw [hfetch]
  unfold Pace.Fetches
  -- Only an answer that takes time makes the work wait.
  by_cases hstay : (pace limit b).stay s.asked q = 0
  · rw [if_pos hstay, hstay]
    exact htakes { s with asked := s.asked ++ [q] } hstands
  · have hsleep : (sleep ((pace limit b).stay s.asked q) : Program Surroundings BindingError Unit) =
        fun u => waitFor (.clock (u.clock + (pace limit b).stay s.asked q)) u :=
      funext fun _ => if_neg hstay
    rw [if_neg hstay, hsleep]
    exact ⟨_, _, _, rfl, hstands, rfl, fun t ht => htakes t ht⟩

/-- A fetch is one, under its name. -/
theorem hasRoute_fetch {since : List Query} (name : String) (q : Query)
    (hname : ∀ earlier, name = q.called (earlier ++ since)) (own : Draws) :
    HasRouteAfter since m pace (fun limit => fetch limit name q) own := by
  refine ⟨⟨[⟨name, q, own⟩], own, .ok (m.answer q)⟩, fun earlier => ⟨hname earlier, trivial⟩,
    fun limit b hb s hstands => ?_⟩
  have hattempt : (((fetch limit name q).attempt >>= fun r => ofExcept r) s).Enacts (pace limit b)
      own (.ok (m.answer q)) [⟨name, q, own⟩] s.asked :=
    enacts_attempt_fetch name q hb hstands (fun t ht => ⟨t, rfl, ht, rfl⟩)
      fun e t ht => ⟨t, rfl, ht⟩
  rwa [show ((fetch limit name q).attempt >>= fun r => ofExcept r) s = fetch limit name q s from
    Paused.attempt_bind_ended _] at hattempt

/-- A report is made at once. -/
theorem hasRoute_report {since : List Query} (event : Event) (own : Draws) :
    HasRouteAfter since m pace (fun _ => report event) own :=
  hasRoute_of_ended own (.ok ()) fun _ _ s hstands => ⟨s.logged [event], rfl, hstands, rfl⟩

/-- The secret behind a row is fetched under the id under which the row was asked for. -/
theorem hasRoute_useRow (id organization : String) (row : Option Credential) (own : Draws) :
    HasRouteAfter [.credential id organization] m pace
      (fun limit => useRow limit id organization (.ok row)) own := by
  -- The credential was asked for last, so a fetch that times out names it.
  have hcalled (earlier : List Query) : id =
      ((earlier ++ [Query.credential id organization]).filterMap Query.credential?).getLastD
        "" := by
    rw [List.filterMap_append]
    exact List.getLastD_concat.symm
  cases row with
  | none => exact hasRoute_fail _
  | some row =>
    simp only [useRow]
    by_cases hforeign : row.organization ≠ organization
    · simp only [if_pos hforeign]
      exact hasRoute_fail _
    · simp only [if_neg hforeign]
      cases row.type with
      | password =>
        refine (hasRoute_fetch id (.password row.id) hcalled own).bind fun secret _ => ?_
        cases secret with
        | none => exact hasRoute_fail _
        | some secret => exact hasRoute_pure _
      | creditCard =>
        refine (hasRoute_fetch id (.creditCard row.id) hcalled own).bind fun secret _ => ?_
        cases secret with
        | none => exact hasRoute_fail _
        | some secret => exact hasRoute_pure _
      | unsupported => exact (hasRoute_report _ own).bind fun _ _ => hasRoute_fail _

/-- The row of a credential is fetched, and then the secret behind it. -/
theorem hasRoute_fetchRow (id organization : String) (own : Draws) :
    HasRoute m pace (fun limit =>
      (fetch limit id (.credential id organization)).attempt >>= useRow limit id organization)
      own := by
  obtain ⟨⟨later, last, r⟩, hnamed, huse⟩ :=
    hasRoute_useRow (m := m) id organization (m.credential? id organization) own
  refine ⟨⟨⟨id, .credential id organization, own⟩ :: later, last, r⟩, fun earlier => ⟨rfl, ?_⟩,
    -- Failing to fetch the row is reported and then fails alike; with the row the work goes on.
    fun limit b hb s hstands => ?_⟩
  · rw [List.append_nil]
    exact hnamed earlier
  · exact enacts_attempt_fetch id (.credential id organization) hb hstands (huse limit b hb)
      fun e t ht => ⟨t.logged [.credentialFetchFailed id e], rfl, ht⟩

/-- The secret of a credential is fetched with one fetch or two. -/
theorem hasRoute_fetchCredential (id organization : String) (own : Draws) :
    HasRoute m pace (fun limit => fetchCredential limit id organization) own := by
  simp only [fetchCredential_eq]
  exact (hasRoute_report _ own).bind fun _ own => hasRoute_fetchRow id organization own

end Surroundings

/-! ## The vault -/

namespace Bench

/-- The pace of work on a bench, of which the vault and the ids are its own. -/
def pace (limit : Option Duration) (b : Backend) : Pace Bench Mint where
  limit := limit
  backend := b
  own := fun c => ⟨c.vault, c.around.draws⟩
  asked := fun c => c.around.asked
  fits := fun c => c.around.backend = b

/-- Work on the surroundings takes the same route at a bench. -/
theorem hasRoute_outside {p : Option Duration → Program Surroundings BindingError α} {own : Mint}
    (hp : HasRoute m Surroundings.pace p own.draws) :
    HasRoute m pace (fun limit => outside (p limit)) own := by
  refine hp.within pace (fun draws => ⟨own.vault, draws⟩) (fun _ c => c.vault = own.vault)
    fun limit b => ⟨rfl, rfl, ?_, ?_⟩
  · rintro draws s c ⟨hbackend, hdraws⟩ hvault
    exact ⟨⟨hbackend, by rw [← hdraws, ← hvault]; rfl⟩, rfl⟩
  · rintro draws c ⟨hbackend, hown⟩
    exact ⟨⟨hbackend, congrArg Mint.draws hown⟩, congrArg Mint.vault hown, rfl⟩

/-- Secrets are put into the vault at once. -/
theorem hasRoute_mint (work : StateM Mint α) (own : Mint) :
    HasRoute m pace (fun _ => mint work) own := by
  refine hasRoute_of_ended (work own).2 (.ok (work own).1) fun limit b c hstands => ?_
  obtain ⟨hbackend, rfl⟩ := hstands
  exact ⟨_, rfl, ⟨hbackend, rfl⟩, rfl⟩

/-- A credential is resolved with the fetches that its secret takes. -/
theorem hasRoute_resolveCredential (id organization : String) (own : Mint) :
    HasRoute m pace (fun limit => resolveCredential limit id organization) own :=
  (hasRoute_outside (Surroundings.hasRoute_fetchCredential id organization own.draws)).bind
    fun secret own => (hasRoute_mint secret.mint own).bind fun handles _ =>
      hasRoute_pure (handlesValue handles)

/-- An external secret is resolved with one fetch. -/
theorem hasRoute_resolveSecret (key : String) (own : Mint) :
    HasRoute m pace (fun limit => resolveSecret limit key) own := by
  have hfetch : HasRoute m Surroundings.pace
      (fun limit => Surroundings.fetch limit key (.secret key)) own.draws :=
    Surroundings.hasRoute_fetch key (.secret key) (fun _ => rfl) own.draws
  refine (hasRoute_outside hfetch).bind fun found own => ?_
  cases found with
  | none => exact hasRoute_pure none
  | some secret =>
    exact (hasRoute_mint (Mint.whole secret) own).bind fun handle _ =>
      hasRoute_pure (some handle)

end Bench

/-! ## Declarations -/

/-- The context with another limit for the stores. -/
def Context.limitedTo (c : Context) (limit : Option Duration) : Context :=
  { c with fetchLimit := limit }

namespace Desk

variable {own : Context × Draws}

/-- The pace of work on a desk, of which the context and the ids are its own. The limit of the
context is that of the pace. -/
def pace (limit : Option Duration) (b : Backend) : Pace Desk (Context × Draws) where
  limit := limit
  backend := b
  own := fun d => (d.context.limitedTo none, d.around.draws)
  asked := fun d => d.around.asked
  fits := fun d => d.around.backend = b ∧ d.context.fetchLimit = limit

/-- The context of a desk is its own, but for the limit. -/
theorem context_of_stands {limit : Option Duration} {b : Backend} {d : Desk}
    (h : (pace limit b).Stands own d) : d.context = own.1.limitedTo limit := by
  obtain ⟨⟨-, rfl⟩, rfl⟩ := h
  rfl

/-- Work on the vault takes the same route at a desk. -/
theorem hasRoute_onVault {p : Option Duration → Program Bench BindingError α}
    (hp : HasRoute m Bench.pace p ⟨own.1.vault, own.2⟩) :
    HasRoute m pace (fun limit => onVault (p limit)) own := by
  refine hp.within pace (fun k => ({ own.1 with vault := k.vault }, k.draws))
    (fun limit d => d.context.fetchLimit = limit ∧
      ∀ vault, { d.context.limitedTo none with vault } = { own.1 with vault })
    fun limit b => ⟨rfl, rfl, ?_, ?_⟩
  · -- What the vault's part of the desk stands for is what the desk stands for, and back.
    rintro k c d ⟨hbackend, rfl⟩ ⟨hlimit, hframe⟩
    exact ⟨⟨⟨hbackend, hlimit⟩, congrArg (·, c.around.draws) (hframe c.vault)⟩, rfl⟩
  · rintro k d ⟨⟨hbackend, hlimit⟩, hown⟩
    obtain ⟨hcontext, hdraws⟩ := Prod.mk.inj hown
    have hvault : d.context.vault = k.vault := congrArg Context.vault hcontext
    refine ⟨⟨hbackend, ?_⟩, ⟨hlimit, fun vault => ?_⟩, rfl⟩
    · show (⟨d.context.vault, d.around.draws⟩ : Mint) = k
      rw [hvault, hdraws]
    · exact congrArg (fun c : Context => { c with vault }) hcontext

/-- Work on the store is done at once. -/
theorem hasRoute_onStore (action : Action Store α) (own : Context × Draws) :
    HasRoute m pace (fun _ => onStore action) own := by
  refine hasRoute_of_ended ({ own.1 with store := (action own.1.store).state }, own.2)
    (action own.1.store).result fun limit b d hstands => ?_
  obtain ⟨⟨hbackend, hlimit⟩, rfl⟩ := hstands
  exact ⟨_, rfl, ⟨⟨hbackend, hlimit⟩, rfl⟩, rfl⟩

/-- A report is made at once. -/
theorem hasRoute_report (event : Event) (own : Context × Draws) :
    HasRoute m pace (fun _ => report event) own :=
  hasRoute_of_ended own (.ok ()) fun _ _ _ hstands => ⟨_, rfl, hstands, rfl⟩

/-- Work that looks at the context takes the route of the work that it then does. -/
theorem hasRoute_look {next : Desk → Program Desk BindingError α}
    {work : Option Duration → Program Desk BindingError α} (hwork : HasRoute m pace work own)
    (hnext : ∀ limit around, next ⟨own.1.limitedTo limit, around⟩ = work limit) :
    HasRoute m pace (fun _ => get >>= next) own := by
  obtain ⟨route, hnamed, hgoes⟩ := hwork
  refine ⟨route, hnamed, fun limit b hb d hstands => ?_⟩
  -- The limit and what stands around are read here, and the rest does not depend on more.
  have hlook : (get >>= next) d = work limit d := by
    show next d d = work limit d
    rw [← hnext limit d.around, ← context_of_stands hstands]
  show Paused.Enacts _ _ _ _ _ ((get >>= next) d)
  rw [hlook]
  exact hgoes limit b hb d hstands

/-- A credential is resolved with the fetches that its secret takes. -/
theorem hasRoute_resolveCredential (id : String) (own : Context × Draws) :
    HasRoute m pace (fun _ => resolveCredential id) own :=
  hasRoute_look (hasRoute_onVault (Bench.hasRoute_resolveCredential id own.1.organization.id _))
    fun _ _ => rfl

/-- An external secret is resolved with one fetch. -/
theorem hasRoute_resolveSecret (key : String) (own : Context × Draws) :
    HasRoute m pace (fun _ => resolveSecret key) own :=
  hasRoute_look (hasRoute_onVault (Bench.hasRoute_resolveSecret key _)) fun _ _ => rfl

/-- A workflow parameter gets its value. -/
theorem hasRoute_defineWorkflow (b : WorkflowBinding) (own : Context × Draws) :
    HasRoute m pace (fun _ => defineWorkflow b) own := by
  unfold defineWorkflow
  by_cases htype : b.parameter.type = .credentialId
  · simp only [if_pos htype]
    cases b.value.text? with
    | none => exact hasRoute_fail _
    | some id =>
      exact (hasRoute_resolveCredential id own).bind fun value own => hasRoute_onStore _ own
  · simp only [if_neg htype]
    exact hasRoute_onStore _ own

/-- A workflow parameter is bound. -/
theorem hasRoute_bindWorkflow (b : WorkflowBinding) (own : Context × Draws) :
    HasRoute m pace (fun _ => bindWorkflow b) own := by
  by_cases hdefined : own.1.store.isDefined b.parameter.key = true
  · refine hasRoute_look ((hasRoute_report (.bindingReplaced own.1.run b.parameter.key) own).bind
      fun _ own => hasRoute_defineWorkflow b own) fun _ _ => ?_
    exact if_pos hdefined
  · refine hasRoute_look (hasRoute_defineWorkflow b own) fun _ _ => ?_
    exact if_neg hdefined

/-- An output parameter is declared. -/
theorem hasRoute_declareOutput (p : OutputParameter) (own : Context × Draws) :
    HasRoute m pace (fun _ => declareOutput p) own := by
  by_cases hdefined : own.1.store.isDefined p.key = true
  · refine hasRoute_look ((hasRoute_report (.outputKeyCollision own.1.run p.key) own).bind
      fun _ _ => hasRoute_fail (.outputKeyCollision p.key)) fun _ _ => ?_
    exact if_pos hdefined
  · refine hasRoute_look (hasRoute_onStore (Action.modify fun s => s.define (.output p)) own)
      fun _ _ => ?_
    exact if_neg hdefined

/-- A secret parameter is bound. -/
theorem hasRoute_bindSecret (p : SecretParameter) (own : Context × Draws) :
    HasRoute m pace (fun _ => bindSecret p) own := by
  cases p with
  | credential p =>
    refine hasRoute_look ((hasRoute_onStore (designated own.1.run p) own).bind fun id own =>
      (hasRoute_resolveCredential id own).bind fun value own => ?_) fun _ _ => rfl
    exact hasRoute_onStore (Action.modify fun s => s.bind (.credential p) value) own
  | externalSecret p =>
    refine (hasRoute_resolveSecret p.secretKey own).bind fun found own => ?_
    cases found with
    | some handle => exact hasRoute_onStore _ own
    | none =>
      exact hasRoute_look (hasRoute_report (.secretWithoutValue own.1.run p.key p.secretKey) own)
        fun _ _ => rfl

/-- One declaration after another is bound. -/
theorem hasRoute_each {work : β → Program Desk BindingError Unit}
    (h : ∀ b own, HasRoute m pace (fun _ => work b) own) (declared : List β)
    (own : Context × Draws) : HasRoute m pace (fun _ => each work declared) own := by
  induction declared generalizing own with
  | nil => exact hasRoute_pure ()
  | cons b rest ih => exact (h b own).bind fun _ own => ih own

/-- Binding the declarations of a run takes the same route at every pace. -/
theorem hasRoute_bindAll (declarations : Declarations) (own : Context × Draws) :
    HasRoute m pace (fun _ => bindAll declarations) own := by
  refine (hasRoute_each hasRoute_bindWorkflow _ own).bind fun _ own => ?_
  refine (hasRoute_each hasRoute_declareOutput _ own).bind fun _ own => ?_
  refine (hasRoute_each hasRoute_bindSecret _ own).bind fun _ own => ?_
  refine (hasRoute_each (fun p => hasRoute_onStore (Store.addContext p)) _ own).bind
    fun _ own => ?_
  exact hasRoute_look (hasRoute_report (.contextBound own.1.run own.1.store.definitions.size
    own.1.vault.size) own) fun _ _ => rfl

end Desk

end RunParams
