import RunParams.Proofs.Latency.Binding

/-!
# Slow stores and the limit on waiting for them

Declarations are bound with a store in memory that takes its time, and with a limit. No fetch of the
binding takes longer than the limit: then it comes to the same as with a store that takes no time
and without a limit. Otherwise the first fetch that does ends the binding with an error that names
it, in the state in which the other binding makes this fetch (`Desk.bindAll_limited`).

To see that state, the other binding is held there: the response to the one query takes a tick
(`Backend.heldAt`), for which it waits, and afterwards it goes on to the same end. Both bindings
take one route (`Desk.hasRoute_bindAll`), so what remains to be shown is how that route goes at
three paces: without any wait, with one, and with a limit.
-/

namespace RunParams

open Surroundings (describe)

namespace Memory

/-- A query takes longer than a number of milliseconds. -/
def Slow (m : Memory) (most : Nat) (q : Query) : Prop :=
  (Duration.millis most).nanos < (m.latency q).nanos

/-- The store with the same entries, taking no time. -/
def instantly (m : Memory) : Memory := { m with credentialLatency := ⟨0⟩, secretLatency := ⟨0⟩ }

/-- A store in memory answers as it does. -/
theorem backend_answersAs (m : Memory) : m.backend.AnswersAs m := fun _ _ => rfl

/-- How long the store takes does not matter for its answers. -/
theorem instantly_answersAs (m : Memory) : m.instantly.backend.AnswersAs m := by
  intro asked q
  cases q <;> rfl

/-- The store takes no time then. -/
theorem instant_instantly (m : Memory) : m.instantly.Instant := by
  intro q
  cases q <;> rfl

/-- In whole milliseconds a query is slow just when a timer with the limit is over before. -/
theorem not_slow_iff {m : Memory} {most : Nat} {q : Query} :
    ¬ m.Slow most q ↔ (m.latency q).ticks ≤ most := by
  show ¬ most * 1000000 < (m.latency q).nanos ↔ ((m.latency q).nanos + 999999) / 1000000 ≤ most
  omega

end Memory

/-- The stores, but the response to the query with a number takes a tick. -/
def Backend.heldAt (b : Backend) (number : Nat) : Backend := fun asked q =>
  if asked.length = number then { b asked q with latency := .millis 1 } else b asked q

namespace Backend

variable {b : Backend} {asked : List Query} {number : Nat} {q : Query}

/-- The response with the number takes a tick. -/
theorem heldAt_of_eq (h : asked.length = number) :
    b.heldAt number asked q = { b asked q with latency := .millis 1 } := if_pos h

/-- Other responses take as long as before. -/
theorem heldAt_of_ne (h : asked.length ≠ number) : b.heldAt number asked q = b asked q := if_neg h

/-- Holding a response does not change it. -/
theorem AnswersAs.heldAt {m : Memory} (h : b.AnswersAs m) (number : Nat) :
    (b.heldAt number).AnswersAs m := by
  intro asked q
  by_cases hnumber : asked.length = number
  · rw [heldAt_of_eq hnumber]
    exact h asked q
  · rw [heldAt_of_ne hnumber]
    exact h asked q

end Backend

namespace Desk

/-- The desk with other stores and another limit for them. -/
def facing (d : Desk) (limit : Option Duration) (backend : Backend) : Desk :=
  ⟨d.context.limitedTo limit, { d.around with backend }⟩

/-- Others leave alone the context, the ids and the stores. -/
def Undisturbed (d d' : Desk) : Prop :=
  d'.context = d.context ∧ d'.around.draws = d.around.draws ∧ d'.around.backend = d.around.backend

variable {limit : Option Duration} {b : Backend} {own : Context × Draws} {m : Memory} {most : Nat}

/-- What stands for a run still does so after others have left it alone. -/
theorem Undisturbed.stands {d d' : Desk} (hstands : (pace limit b).Stands own d)
    (h : Undisturbed d d') : (pace limit b).Stands own d' := by
  obtain ⟨⟨hbackend, hlimit⟩, hown⟩ := hstands
  obtain ⟨hcontext, hdraws, hsame⟩ := h
  refine ⟨⟨hsame.trans hbackend, ?_⟩, ?_⟩
  · rw [hcontext, hlimit]
  · show (d'.context.limitedTo none, d'.around.draws) = own
    rw [hcontext, hdraws]
    exact hown

/-- A fetch that takes no longer than the limit is answered in time. -/
theorem outcome_of_not_slow {f : Fetch (Context × Draws)} (h : ¬ m.Slow most f.query)
    (asked : List Query) :
    (pace (some (.millis most)) m.backend).outcome asked f = .ok (m.answer f.query) := by
  have hintime : (m.latency f.query).ticks ≤ (Duration.millis most).ticks := by
    rw [Duration.ticks_millis]
    exact Memory.not_slow_iff.mp h
  exact if_pos hintime

/-- A fetch that takes longer is not. -/
theorem outcome_of_slow {f : Fetch (Context × Draws)} (h : m.Slow most f.query)
    (asked : List Query) :
    (pace (some (.millis most)) m.backend).outcome asked f =
      .error (.fetchTimeout (describe f.name f.query) (.millis most)) := by
  have hlate : ¬ (m.latency f.query).ticks ≤ (Duration.millis most).ticks := by
    rw [Duration.ticks_millis]
    exact fun hintime => Memory.not_slow_iff.mpr hintime h
  exact if_neg hlate

/-- Without a limit, a run with stores that answer as a store in memory is patient. -/
theorem patient (h : b.AnswersAs m) : (pace none b).Patient := ⟨rfl, fun asked q => ⟨_, h asked q⟩⟩

/-- A run without a limit is held at the one response that takes a tick. -/
theorem stay_heldAt (m : Memory) (number : Nat) (asked : List Query) (q : Query) :
    (pace none (m.instantly.backend.heldAt number)).stay asked q = 0 ↔ asked.length ≠ number := by
  show (m.instantly.backend.heldAt number asked q).latency.ticks = 0 ↔ _
  by_cases hnumber : asked.length = number
  · rw [Backend.heldAt_of_eq hnumber]
    exact ⟨fun h => absurd ((Duration.ticks_millis 1).symm.trans h) Nat.one_ne_zero,
      fun h => absurd hnumber h⟩
  · rw [Backend.heldAt_of_ne hnumber]
    exact ⟨fun _ => hnumber, fun _ => congrArg Duration.ticks (m.instant_instantly q)⟩

section Limited

variable {α : Type} {p : Paused Desk BindingError α} {f : Fetch (Context × Draws)}
  {before fetches : List (Fetch (Context × Draws))} {asked : List Query}
  {r r' : Except BindingError α} {t : Desk}

/-- A run with a limit gets over all fetches that are quick enough. -/
theorem past_quick
    (h : p.Enacts (pace (some (.millis most)) m.backend) own r (before ++ fetches) asked)
    (hquick : ∀ g ∈ before, ¬ m.Slow most g.query) (hend : p.CanEnd Undisturbed t r') :
    ∃ asked', ∃ p' : Paused Desk BindingError α,
      p'.Enacts (pace (some (.millis most)) m.backend) own r fetches asked' ∧
      p'.CanEnd Undisturbed t r' :=
  h.of_canEnd (fun _ _ _ => Undisturbed.stands)
    (fun g hg asked => ⟨_, outcome_of_not_slow (hquick g hg) asked⟩) hend

/-- If all are, it comes to what it would come to without the limit. -/
theorem ends_in_time
    (h : p.Enacts (pace (some (.millis most)) m.backend) own r fetches asked)
    (hquick : ∀ g ∈ fetches, ¬ m.Slow most g.query) (hend : p.CanEnd Undisturbed t r') :
    r' = r ∧ t.context = own.1.limitedTo (some (.millis most)) := by
  rw [← List.append_nil fetches] at h
  obtain ⟨_, _, ⟨u, rfl, hstands, -⟩, hend'⟩ := past_quick h hquick hend
  obtain ⟨rfl, rfl⟩ := hend'.of_ended
  exact ⟨rfl, context_of_stands hstands⟩

/-- The first that is not ends it, with the context as it is at that fetch. -/
theorem ends_late
    (h : p.Enacts (pace (some (.millis most)) m.backend) own r (before ++ f :: fetches) asked)
    (hquick : ∀ g ∈ before, ¬ m.Slow most g.query) (hslow : m.Slow most f.query)
    (hend : p.CanEnd Undisturbed t r') :
    r' = .error (.fetchTimeout (describe f.name f.query) (.millis most)) ∧
      t.context = f.own.1.limitedTo (some (.millis most)) := by
  -- What was fetched before was in time, so the work stands at the slow fetch with all it had by
  -- then.
  obtain ⟨asked', p', h', hend'⟩ := past_quick h hquick hend
  obtain ⟨hr, hstands⟩ :=
    h'.of_late (fun _ _ _ => Undisturbed.stands) (outcome_of_slow hslow asked') hend'
  exact ⟨hr, context_of_stands hstands⟩

end Limited

/-- Binding some declarations comes, with a limit, to the same as with a store that takes no time,
if no fetch of it takes longer than the limit. Otherwise the first fetch that does ends it with an
error that names the fetch, and leaves the context as it is when this fetch is made with a store
that takes no time. -/
theorem bindAll_limited (declarations : Declarations) (d : Desk) (m : Memory) (most : Nat) :
    let limit : Duration := .millis most
    ∃ final r queries,
      bindAll declarations (d.facing none m.instantly.backend) = .ended final r ∧
      final.around.asked = d.around.asked ++ queries ∧
      let limited := bindAll declarations (d.facing (some limit) m.backend)
      (∃ t r', limited.CanEnd Undisturbed t r') ∧
      ∀ t r', limited.CanEnd Undisturbed t r' →
        ((∀ q ∈ queries, ¬ m.Slow most q) →
          r' = r ∧ t.context = final.context.limitedTo (some limit)) ∧
        ∀ before q after, queries = before ++ q :: after → (∀ q' ∈ before, ¬ m.Slow most q') →
          m.Slow most q →
          r' = .error (.fetchTimeout (describe (q.called before) q) limit) ∧
          ∃ held w resume,
            bindAll declarations (d.facing none (m.instantly.backend.heldAt
              (d.around.asked.length + before.length))) = .waiting held w resume ∧
            held.around.asked = d.around.asked ++ before ++ [q] ∧
            t.context = held.context.limitedTo (some limit) ∧
            ∃ last, resume held = .ended last r ∧ last.context = final.context := by
  intro limit
  obtain ⟨⟨fetches, last, r⟩, hnamed, hgoes⟩ :=
    hasRoute_bindAll (m := m) declarations (d.context.limitedTo none, d.around.draws)
  have hstart : ∀ limit b, (pace limit b).Stands (d.context.limitedTo none, d.around.draws)
      (d.facing limit b) := fun _ _ => ⟨⟨rfl, rfl⟩, rfl⟩
  -- One route, enacted twice: under the limit and with no time at all.
  have hlimited := hgoes (some limit) m.backend m.backend_answersAs _ (hstart _ _)
  have hinstant := hgoes none m.instantly.backend m.instantly_answersAs _ (hstart _ _)
  obtain ⟨final, hend, hfinal, hasked⟩ := hinstant.atOnce (patient m.instantly_answersAs)
    fun earlier q _ => (Response.of_instant (m.instant_instantly q) none "").1
  refine ⟨final, r, fetches.map Fetch.query, hend, hasked, ⟨_, _, Paused.canEnd_alone
    (fun _ d => d) (fun _ d => ⟨rfl, rfl, rfl⟩) _⟩, fun t r' hcan => ⟨fun hall => ?_, ?_⟩⟩
  · -- No answer is late, so the limit is never felt.
    rw [context_of_stands hfinal]
    exact ends_in_time hlimited (fun f hf => hall f.query (List.mem_map_of_mem hf)) hcan
  · intro before q after hsplit hbefore hslow
    -- The queries split where the fetches do.
    obtain ⟨first, rest, rfl, rfl, hrest⟩ := List.map_eq_append_iff.mp hsplit
    obtain ⟨f, later, rfl, rfl, rfl⟩ := List.map_eq_cons_iff.mp hrest
    obtain ⟨rfl, ht⟩ :=
      ends_late hlimited (fun g hg => hbefore g.query (List.mem_map_of_mem hg)) hslow hcan
    have hname : f.name = f.query.called (first.map Fetch.query) :=
      (wellNamed_append.mp (hnamed [])).2.1
    -- The binding that takes no time is held at this fetch.
    have hanswers := m.instantly_answersAs.heldAt
      (d.around.asked.length + (first.map Fetch.query).length)
    obtain ⟨held, w, resume, hwait, hheld, hasked', last', hlast, hown⟩ :=
      (hgoes none _ hanswers _ (hstart _ _)).held (patient hanswers) fun earlier q => by
        rw [stay_heldAt, List.length_map]
        rfl
    rw [hname, ht, context_of_stands hfinal]
    refine ⟨rfl, held, w, resume, hwait, hasked', ?_, last', hlast, context_of_stands hown⟩
    rw [context_of_stands hheld]
    rfl

/-- An external secret is there in time, and the row of a credential is not. -/
theorem bindAll_limited_credential :
    let m : Memory := { (Memory.empty.addSecret "k" "x").addPassword "c" "o_1" ⟨"u", "p", none⟩ with
      credentialLatency := .millis 5, secretLatency := .millis 2 }
    let d : Desk := ⟨.fresh .standard "r" ⟨"o_1", none⟩ 0, ⟨m.backend, [], default, 0, []⟩⟩
    let declarations : Declarations :=
      ⟨[], [], [], [.externalSecret (.ofSecret "token" "k"), .credential (.ofId "login" "c")]⟩
    ∃ t, (bindAll declarations (d.facing (some (.millis 3)) m.backend)).CanEnd Undisturbed t
        (.error (.fetchTimeout "credential c" (.millis 3))) ∧
      t.context.store.hasValue "token" = true ∧ t.context.vault.size = 1 ∧
      t.context.store.isDefined "login" = false := by
  intro m d declarations
  obtain ⟨final, r, queries, hend, hasked, ⟨t, r', hcan⟩, hall⟩ :=
    bindAll_limited declarations d m 3
  have hqueries : queries =
      [.secret "k"] ++ .credential "c" "o_1" :: [.password "c"] := by
    have hfinal : _ = final := congrArg Paused.state hend
    rw [← hfinal] at hasked
    refine hasked.symm.trans ?_
    dsimp only [declarations, d, m]
    decide +kernel
  obtain ⟨rfl, held, w, resume, hheld, -, hcontext, -⟩ :=
    (hall t r' hcan).2 [.secret "k"] (.credential "c" "o_1") [.password "c"] hqueries
      (by
        rintro q (_ | ⟨_, ⟨⟩⟩)
        show ¬ 3 * 1000000 < 2 * 1000000
        decide)
      (by
        show 3 * 1000000 < 5 * 1000000
        decide)
  have hstate : _ = held := congrArg Paused.state hheld
  refine ⟨t, hcan, ?_⟩
  rw [hcontext, ← hstate]
  dsimp only [declarations, d, m]
  decide +kernel

end Desk

end RunParams
