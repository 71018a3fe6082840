import RunParams.Lookup.Memory
import RunParams.Proofs.Resolving.Answers

/-!
# The pace of a run

The same work goes faster or slower, depending on how long the stores take and how long a run is
willing to wait for them. A `Pace` fixes both. What the work is made up of does not depend on it: a
list of fetches, each with what the run has when it asks, and in the end a result
(`Paused.Enacts`). At a given pace the run gets over a fetch at once or it waits, and it goes on
unless the response comes too late; then it ends with the error that names the fetch.

So whoever knows the fetches of some work knows how it goes at each pace. Fetches that cost no time
are got over at once (`Paused.Enacts.skip`), and those that are answered in time are got over
however others use the waits (`Paused.Enacts.of_canEnd`).
-/

namespace RunParams

open Surroundings (describe)

variable {σ τ κ ν α β : Type}

/-! ## One fetch -/

/-- The ticks for which a response is waited for. -/
def Response.stay (response : Response α) (limit : Option Duration) : Nat :=
  match limit with
  | none => response.latency.ticks
  | some most => min response.latency.ticks most.ticks

/-- Who fetches something waits for the response, and then it comes to what the response does. -/
theorem Surroundings.fetch_eq (limit : Option Duration) (name : String) (q : Query)
    (s : Surroundings) :
    fetch limit name q s = (sleep ((s.backend s.asked q).stay limit) >>= fun _ =>
      .ofExcept ((s.backend s.asked q).outcome limit (describe name q)))
        { s with asked := s.asked ++ [q] } := by
  unfold fetch Response.stay Response.outcome
  cases limit with
  | none => rfl
  | some most =>
    -- In time the whole latency is waited for, else the limit, and then the error is fixed.
    by_cases hintime : (s.backend s.asked q).latency.ticks ≤ most.ticks
    · simp only [hintime, if_true, Nat.min_eq_left hintime]
    · simp only [hintime, if_false, Nat.min_eq_right (Nat.le_of_not_le hintime)]
      rfl

/-- A store takes no time. -/
def Memory.Instant (m : Memory) : Prop := ∀ q, m.latency q = ⟨0⟩

/-- A response that takes no time is there at once, whatever the limit is. -/
theorem Response.of_instant {response : Response α} (h : response.latency = ⟨0⟩)
    (limit : Option Duration) (asked : String) :
    response.stay limit = 0 ∧ response.outcome limit asked = response.result := by
  have hticks : response.latency.ticks = 0 := congrArg Duration.ticks h
  unfold stay outcome
  cases limit with
  | none => exact ⟨hticks, rfl⟩
  | some most => simp only [hticks, Nat.zero_min, Nat.zero_le, if_true, and_self]

/-- A store in memory that takes no time answers at once. -/
theorem Surroundings.fetch_instant {m : Memory} {s : Surroundings}
    (hbackend : s.backend = m.backend) (hinstant : m.Instant) (limit : Option Duration)
    (name : String) (q : Query) :
    fetch limit name q s = .ended { s with asked := s.asked ++ [q] } (.ok (m.answer q)) := by
  have hlatency : (m.backend s.asked q).latency = ⟨0⟩ := hinstant q
  obtain ⟨hstay, houtcome⟩ := Response.of_instant hlatency limit (describe name q)
  rw [fetch_eq, hbackend, hstay, houtcome]
  rfl

/-- How fast a run gets on with its work: how long it waits, and how long the stores take. It is
told which part of a state is the run's own, and which states are those of a run at this pace. -/
structure Pace (σ κ : Type) where
  limit : Option Duration
  backend : Backend
  own : σ → κ
  asked : σ → List Query
  fits : σ → Prop

/-- A fetch: what is asked for, under which name, and what the run has then. -/
structure Fetch (κ : Type) where
  name : String
  query : Query
  own : κ

/-- The fetch of a run of which this one is a part. -/
def Fetch.map (lift : κ → ν) (f : Fetch κ) : Fetch ν := ⟨f.name, f.query, lift f.own⟩

namespace Pace

variable (pace : Pace σ κ)

/-- A state of a run at the pace that has something as its own. -/
def Stands (own : κ) (s : σ) : Prop := pace.fits s ∧ pace.own s = own

/-- How long a run waits in a fetch. -/
def stay (asked : List Query) (q : Query) : Nat := (pace.backend asked q).stay pace.limit

/-- What a fetch comes to. -/
def outcome (asked : List Query) (f : Fetch κ) : Except BindingError f.query.Answer :=
  (pace.backend asked f.query).outcome pace.limit (describe f.name f.query)

/-- What becomes of a run when the response to a fetch is there or is not waited for any longer: it
goes on or it ends with an error. -/
def Takes (f : Fetch κ) (response : Except BindingError f.query.Answer)
    (goesOn : Paused σ BindingError α → Prop) (p : Paused σ BindingError α) : Prop :=
  match response with
  | .ok _ => goesOn p
  | .error e => ∃ t, p = .ended t (.error e) ∧ pace.Stands f.own t

/-- What becomes of a run that fetches something, in which some queries have been made before: if
the fetch costs no time, it takes what there is at once, and otherwise it waits. -/
def Fetches (f : Fetch κ) (goesOn : List Query → Paused σ BindingError α → Prop)
    (asked : List Query) (p : Paused σ BindingError α) : Prop :=
  if pace.stay asked f.query = 0 then
    pace.Takes f (pace.outcome asked f) (goesOn (asked ++ [f.query])) p
  else ∃ t w resume, p = .waiting t w resume ∧ pace.Stands f.own t ∧
    pace.asked t = asked ++ [f.query] ∧ ∀ t', pace.Stands f.own t' →
      pace.Takes f (pace.outcome asked f) (goesOn (pace.asked t')) (resume t')

/-- Nothing limits the run, and the stores do not fail. -/
structure Patient : Prop where
  limit : pace.limit = none
  answers : ∀ asked q, ∃ answer, (pace.backend asked q).result = .ok answer

variable {pace : Pace σ κ} {f : Fetch κ} {asked : List Query} {p : Paused σ BindingError α}
  {next : α → σ → Paused σ BindingError β}

/-- Every fetch of a patient run is answered. -/
theorem Patient.outcome (h : pace.Patient) (asked : List Query) (f : Fetch κ) :
    ∃ answer, pace.outcome asked f = .ok answer := by
  unfold Pace.outcome
  rw [h.limit]
  exact h.answers asked f.query

/-- What is made of a response when the run goes on with other work afterwards. -/
theorem Takes.bind {response : Except BindingError f.query.Answer}
    {goesOn : Paused σ BindingError α → Prop} {goesOn' : Paused σ BindingError β → Prop}
    (h : pace.Takes f response goesOn p) (hgoesOn : ∀ p, goesOn p → goesOn' (p.bind next)) :
    pace.Takes f response goesOn' (p.bind next) := by
  cases response with
  | ok answer => exact hgoesOn p h
  | error e =>
    obtain ⟨t, rfl, hstands⟩ := h
    exact ⟨t, rfl, hstands⟩

/-- A fetch of a run that goes on with other work afterwards. -/
theorem Fetches.bind {goesOn : List Query → Paused σ BindingError α → Prop}
    {goesOn' : List Query → Paused σ BindingError β → Prop} (h : pace.Fetches f goesOn asked p)
    (hgoesOn : ∀ asked p, goesOn asked p → goesOn' asked (p.bind next)) :
    pace.Fetches f goesOn' asked (p.bind next) := by
  unfold Pace.Fetches at h ⊢
  -- Whether there is a wait is settled by the pace, before what follows.
  by_cases hstay : pace.stay asked f.query = 0
  · rw [if_pos hstay] at h ⊢
    exact h.bind (hgoesOn _)
  · rw [if_neg hstay] at h ⊢
    obtain ⟨t, w, resume, rfl, hstands, hasked, hresume⟩ := h
    refine ⟨t, w, _, rfl, hstands, hasked, fun t' hstands' => ?_⟩
    exact (hresume t' hstands').bind (hgoesOn _)

/-- A run that is at a fetch gets over the wait, if there is one, before it ends. -/
theorem Fetches.of_canEnd {rely : σ → σ → Prop} {t : σ} {r : Except BindingError α}
    {goesOn : List Query → Paused σ BindingError α → Prop}
    (hrely : ∀ own s s', pace.Stands own s → rely s s' → pace.Stands own s')
    (h : pace.Fetches f goesOn asked p) (hend : p.CanEnd rely t r) :
    ∃ asked' p', pace.Takes f (pace.outcome asked f) (goesOn asked') p' ∧
      p'.CanEnd rely t r := by
  unfold Pace.Fetches at h
  by_cases hstay : pace.stay asked f.query = 0
  · rw [if_pos hstay] at h
    exact ⟨_, p, h, hend⟩
  · rw [if_neg hstay] at h
    obtain ⟨s, w, resume, rfl, hstands, -, hresume⟩ := h
    -- While it waits, others leave alone what the pace relies on.
    cases hend with
    | waiting found rest => exact ⟨_, _, hresume _ (hrely _ _ _ hstands found), rest⟩

/-- A run on a part of a state goes at the same pace as the whole, and the rest of the state, the
frame, belongs to the run too. -/
structure Embeds (inner : Pace σ κ) (outer : Pace τ ν) (part : τ → σ) (replace : σ → τ → τ)
    (lift : κ → ν) (frame : τ → Prop) : Prop where
  limit : outer.limit = inner.limit
  backend : outer.backend = inner.backend
  /-- What the part is replaced with stands for the whole. -/
  replaced : ∀ own s whole, inner.Stands own s → frame whole →
    outer.Stands (lift own) (replace s whole) ∧ outer.asked (replace s whole) = inner.asked s
  /-- The part of a whole that stands is as it should be, and so is the frame. -/
  found : ∀ own t, outer.Stands (lift own) t →
    inner.Stands own (part t) ∧ frame t ∧ inner.asked (part t) = outer.asked t

end Pace

namespace Paused

variable {pace : Pace σ κ} {mid last : κ} {f : Fetch κ} {before fetches later : List (Fetch κ)}
  {asked : List Query} {p : Paused σ BindingError α} {a : α} {r : Except BindingError α}
  {r' : Except BindingError β} {next : α → σ → Paused σ BindingError β}

/-! ## One fetch after another -/

/-- A run at some pace makes some fetches, one after the other, and ends with a result, with
something as its own. -/
def Enacts (pace : Pace σ κ) (last : κ) (r : Except BindingError α) :
    List (Fetch κ) → List Query → Paused σ BindingError α → Prop
  | [], asked, p => ∃ t, p = .ended t r ∧ pace.Stands last t ∧ pace.asked t = asked
  | f :: rest, asked, p => pace.Fetches f (Enacts pace last r rest) asked p

/-- The fetches of work that is made up of two parts. -/
theorem Enacts.bind (h : p.Enacts pace mid (.ok a) fetches asked)
    (hnext : ∀ t, pace.Stands mid t → (next a t).Enacts pace last r' later (pace.asked t)) :
    (p.bind next).Enacts pace last r' (fetches ++ later) asked := by
  induction fetches generalizing asked p with
  | nil =>
    obtain ⟨t, rfl, hstands, rfl⟩ := h
    exact hnext t hstands
  | cons f rest ih => exact Pace.Fetches.bind h fun _ _ => ih

/-- After a failure the second part is left out. -/
theorem Enacts.bind_error {e : BindingError} (h : p.Enacts pace last (.error e) fetches asked) :
    (p.bind next).Enacts pace last (.error e) fetches asked := by
  induction fetches generalizing asked p with
  | nil =>
    obtain ⟨t, rfl, hstands, rfl⟩ := h
    exact ⟨t, rfl, hstands, rfl⟩
  | cons f rest ih => exact Pace.Fetches.bind h fun _ _ => ih

/-! ## Work on a part of a state -/

/-- Work on a part of a state makes the same fetches as on the part alone. -/
theorem Enacts.within {outer : Pace τ ν} {part : τ → σ} {replace : σ → τ → τ} {lift : κ → ν}
    {frame : τ → Prop} {whole : τ} (hembeds : pace.Embeds outer part replace lift frame)
    (hframe : frame whole) (h : p.Enacts pace last r fetches asked) :
    (p.within part replace whole).Enacts outer (lift last) r (fetches.map (Fetch.map lift))
      asked := by
  induction fetches generalizing asked p whole with
  | nil =>
    obtain ⟨t, rfl, hstands, rfl⟩ := h
    exact ⟨_, rfl, hembeds.replaced last t whole hstands hframe⟩
  | cons f rest ih =>
    have hstay : outer.stay asked f.query = pace.stay asked f.query := by
      unfold Pace.stay
      rw [hembeds.limit, hembeds.backend]
    have houtcome : outer.outcome asked (f.map lift) = pace.outcome asked f := by
      unfold Pace.outcome
      rw [hembeds.limit, hembeds.backend]
      rfl
    -- What is made of the response, from any state of the whole that fits.
    have htakes : ∀ {asked' : List Query} {p : Paused σ BindingError α} {whole : τ}, frame whole →
        pace.Takes f (pace.outcome asked f) (Enacts pace last r rest asked') p →
        outer.Takes (f.map lift) (outer.outcome asked (f.map lift))
          (Enacts outer (lift last) r (rest.map (Fetch.map lift)) asked')
          (p.within part replace whole) := by
      intro asked' p whole hframe h
      rw [houtcome]
      cases hresponse : pace.outcome asked f with
      | ok answer =>
        rw [hresponse] at h
        exact ih hframe h
      | error e =>
        rw [hresponse] at h
        obtain ⟨t, rfl, hstands⟩ := h
        exact ⟨_, rfl, (hembeds.replaced f.own t whole hstands hframe).1⟩
    show outer.Fetches (f.map lift) _ asked _
    change pace.Fetches f _ asked p at h
    unfold Pace.Fetches at h ⊢
    rw [show (f.map lift).query = f.query from rfl, hstay]
    -- Inside and outside wait at the same fetches, for the same time.
    by_cases hzero : pace.stay asked f.query = 0
    · rw [if_pos hzero] at h ⊢
      exact htakes hframe h
    · rw [if_neg hzero] at h ⊢
      obtain ⟨t, w, resume, rfl, hstands, hasked, hresume⟩ := h
      obtain ⟨hreplaced, hasked'⟩ := hembeds.replaced f.own t whole hstands hframe
      refine ⟨_, w, _, rfl, hreplaced, hasked'.trans hasked, fun t' hstands' => ?_⟩
      obtain ⟨hpart, hframe', hsame⟩ := hembeds.found f.own t' hstands'
      rw [← hsame]
      exact htakes hframe' (hresume (part t') hpart)

/-! ## What a run comes to -/

/-- Fetches that cost no time are got over at once by a patient run. -/
theorem Enacts.skip (hpatient : pace.Patient)
    (hstay : ∀ earlier q, asked.length ≤ earlier.length →
      earlier.length < asked.length + before.length → pace.stay earlier q = 0)
    (h : p.Enacts pace last r (before ++ fetches) asked) :
    p.Enacts pace last r fetches (asked ++ before.map Fetch.query) := by
  induction before generalizing asked with
  | nil =>
    rw [List.map_nil, List.append_nil]
    exact h
  | cons f rest ih =>
    -- The fetches before the one that is held take no time.
    have hfirst : pace.stay asked f.query = 0 :=
      hstay asked f.query (Nat.le_refl _) (Nat.lt_add_of_pos_right (Nat.succ_pos rest.length))
    obtain ⟨answer, hanswer⟩ := hpatient.outcome asked f
    change pace.Fetches f _ asked p at h
    unfold Pace.Fetches at h
    rw [if_pos hfirst, hanswer] at h
    have hrest := ih (fun earlier q hleast hmost => ?_) h
    · rw [List.append_assoc] at hrest
      exact hrest
    · rw [List.length_append, List.length_singleton] at hleast hmost
      refine hstay earlier q (Nat.le_of_succ_le hleast) ?_
      rw [List.length_cons]
      omega

/-- A patient run whose fetches cost no time is over at once. -/
theorem Enacts.atOnce (hpatient : pace.Patient)
    (hstay : ∀ earlier q, asked.length ≤ earlier.length → pace.stay earlier q = 0)
    (h : p.Enacts pace last r fetches asked) :
    ∃ t, p = .ended t r ∧ pace.Stands last t ∧ pace.asked t = asked ++ fetches.map Fetch.query := by
  rw [← List.append_nil fetches] at h
  exact h.skip hpatient fun earlier q hleast _ => hstay earlier q hleast

/-- If the response to one query takes time and the others do not, a patient run waits at the fetch
that makes this query, and afterwards it is over at once. -/
theorem Enacts.held (hpatient : pace.Patient)
    (hheld : ∀ earlier q, pace.stay earlier q = 0 ↔ earlier.length ≠ asked.length + before.length)
    (h : p.Enacts pace last r (before ++ f :: fetches) asked) :
    ∃ t w resume, p = .waiting t w resume ∧ pace.Stands f.own t ∧
      pace.asked t = asked ++ before.map Fetch.query ++ [f.query] ∧
      ∃ u, resume t = .ended u r ∧ pace.Stands last u := by
  -- The fetch that waits is the one at this position: those before it are skipped, those after take
  -- no time.
  have hrest := h.skip hpatient fun earlier q _ hmost => (hheld earlier q).mpr (Nat.ne_of_lt hmost)
  have hnow : pace.stay (asked ++ before.map Fetch.query) f.query ≠ 0 := by
    rw [ne_eq, hheld, not_not, List.length_append, List.length_map]
  obtain ⟨answer, hanswer⟩ := hpatient.outcome (asked ++ before.map Fetch.query) f
  change pace.Fetches f _ _ p at hrest
  unfold Pace.Fetches at hrest
  rw [if_neg hnow] at hrest
  obtain ⟨t, w, resume, rfl, hstands, hasked, hresume⟩ := hrest
  have hlater := hresume t hstands
  rw [hanswer] at hlater
  have hstay : ∀ earlier q, (pace.asked t).length ≤ earlier.length → pace.stay earlier q = 0 := by
    intro earlier q hleast
    rw [hasked, List.length_append, List.length_append, List.length_map] at hleast
    exact (hheld earlier q).mpr (Nat.ne_of_gt hleast)
  -- After the wait nothing holds the work up, so it ends in the state it would have ended in.
  obtain ⟨u, hend, hlast, -⟩ := Enacts.atOnce hpatient hstay hlater
  exact ⟨t, w, resume, rfl, hstands, hasked, u, hend, hlast⟩

variable {rely : σ → σ → Prop} {t : σ} {r₁ : Except BindingError α}

/-- Fetches that are answered in time are got over before a run ends. -/
theorem Enacts.of_canEnd (hrely : ∀ own s s', pace.Stands own s → rely s s' → pace.Stands own s')
    (hintime : ∀ f ∈ before, ∀ asked, ∃ answer, pace.outcome asked f = .ok answer)
    (h : p.Enacts pace last r (before ++ fetches) asked) (hend : p.CanEnd rely t r₁) :
    ∃ asked', ∃ p' : Paused σ BindingError α,
      p'.Enacts pace last r fetches asked' ∧ p'.CanEnd rely t r₁ := by
  induction before generalizing asked p with
  | nil => exact ⟨asked, p, h, hend⟩
  | cons f rest ih =>
    obtain ⟨hfirst, hrest⟩ := List.forall_mem_cons.mp hintime
    obtain ⟨asked', p', htakes, hend'⟩ := Pace.Fetches.of_canEnd hrely h hend
    -- An answer in time is taken whether or not it was waited for.
    obtain ⟨answer, hanswer⟩ := hfirst asked
    rw [hanswer] at htakes
    exact ih hrest htakes hend'

/-- A run ends at a fetch that is not answered in time. -/
theorem Enacts.of_late {e : BindingError}
    (hrely : ∀ own s s', pace.Stands own s → rely s s' → pace.Stands own s')
    (hlate : pace.outcome asked f = .error e) (h : p.Enacts pace last r (f :: fetches) asked)
    (hend : p.CanEnd rely t r₁) : r₁ = .error e ∧ pace.Stands f.own t := by
  obtain ⟨asked', p', htakes, hend'⟩ := Pace.Fetches.of_canEnd hrely h hend
  rw [hlate] at htakes
  obtain ⟨s, rfl, hstands⟩ := htakes
  obtain ⟨rfl, rfl⟩ := hend'.of_ended
  exact ⟨rfl, hstands⟩

end Paused

end RunParams
