import RunParams.Proofs.Replay.Endings

/-!
# Programs that repeat themselves

A program is run twice. One run is among others, which do as they like with all but what belongs to
the program alone; the other run is on its own. What belongs to the program is alike at the start.
The program repeats itself if the second run ends as the first one does, provided that it is given
what the first one has taken: the same ids and the same answers (`Program.Repeats`).

The two runs need not wait at the same times, nor find the same log or clock. The rules for what
programs are made up of split what was taken as `Paused.Ends` does.
-/

namespace RunParams

/-- What can be taken is the same. -/
structure Surroundings.SameSupply (s s' : Surroundings) : Prop where
  backend : s'.backend = s.backend
  asked : s'.asked = s.asked
  draws : s'.draws = s.draws

namespace Surroundings

variable {s s' : Surroundings} {t : Takings}

/-- What can be taken is the same at a later moment. -/
theorem SameSupply.later (h : s.SameSupply s') : s.Later s' :=
  ⟨h.draws ▸ .refl _, h.backend, h.asked ▸ List.prefix_refl _⟩

/-- When what can be taken is the same, nothing has been taken. -/
theorem SameSupply.taken (h : s.SameSupply s') : s.taken s' = .none := by
  have hsame : s.taken s' = s.taken s := by
    unfold Surroundings.taken
    rw [h.draws, h.asked]
  rw [hsame]
  exact meter.taken_self s

/-- Surroundings in which the same can be taken give the same. -/
theorem SameSupply.gives (h : s.SameSupply s') (hs : s.Gives t) : s'.Gives t := by
  obtain ⟨hids, hanswers⟩ := hs
  rw [← h.draws] at hids
  rw [← h.backend, ← h.asked] at hanswers
  exact ⟨hids, hanswers⟩

end Surroundings

namespace Program

variable {σ κ ε ε' α β : Type}

/-- The program repeats itself, in surroundings that are `around` a state, when what is its `own` is
`alike` at the start. -/
structure Repeats (around : σ → Surroundings) (own : σ → κ) (alike : κ → κ → Prop)
    (p : Program σ ε α) : Prop where
  keeps : p.KeepsTo (Surroundings.meter.on around).later
  repeats : ∀ s s' took rest t r t' r', alike (own s) (own s') →
    (around s').Gives (took ++ rest) →
    (p s).Ends (Surroundings.meter.on around) (fun s s' => own s' = own s) s took t r →
    (p s').CanEnd (fun s s' => own s' = own s ∧ (around s).SameSupply (around s')) t' r' →
    r' = r ∧ alike (own t) (own t') ∧ (around t').Gives rest

variable {around : σ → Surroundings} {own : σ → κ} {alike : κ → κ → Prop}

/-- A program that goes on with the value of another repeats itself if both do. -/
theorem Repeats.bind {p : Program σ ε α} {next : α → Program σ ε β}
    (hp : p.Repeats around own alike) (hnext : ∀ a, (next a).Repeats around own alike) :
    (p >>= next).Repeats around own alike := by
  refine ⟨hp.keeps.bind fun a => (hnext a).keeps, ?_⟩
  intro s s' took rest t r t' r' hs hgives hend hend'
  rcases Paused.Ends.of_bind (hp.keeps s) (fun a => (hnext a).keeps) hend with
    ⟨u, a, first, second, rfl, hfirst, hsecond⟩ | ⟨e, rfl, hfirst⟩
  · -- The first part repeats itself and leaves to the second one what that needs.
    rw [Takings.append_assoc] at hgives
    rcases Paused.CanEnd.of_bind hend' with ⟨u', a', hfirst', hsecond'⟩ | ⟨e', rfl, hfirst'⟩
    · obtain ⟨hvalue, hu, hleft⟩ := hp.repeats _ _ _ _ _ _ _ _ hs hgives hfirst hfirst'
      cases hvalue
      exact (hnext a).repeats _ _ _ _ _ _ _ _ hu hleft hsecond hsecond'
    · -- The first part returns the same both times, so it cannot fail only once.
      obtain ⟨hvalue, -, -⟩ := hp.repeats _ _ _ _ _ _ _ _ hs hgives hfirst hfirst'
      cases hvalue
  · rcases Paused.CanEnd.of_bind hend' with ⟨u', a', hfirst', -⟩ | ⟨e', rfl, hfirst'⟩
    · obtain ⟨hvalue, -, -⟩ := hp.repeats _ _ _ _ _ _ _ _ hs hgives hfirst hfirst'
      cases hvalue
    · obtain ⟨hvalue, ht, hleft⟩ := hp.repeats _ _ _ _ _ _ _ _ hs hgives hfirst hfirst'
      cases hvalue
      exact ⟨rfl, ht, hleft⟩

/-- A program whose error is made a value repeats itself. -/
theorem Repeats.attempt {p : Program σ ε α} (hp : p.Repeats around own alike) :
    (p.attempt : Program σ ε' (Except ε α)).Repeats around own alike := by
  refine ⟨hp.keeps.attempt, ?_⟩
  intro s s' took rest t r t' r' hs hgives hend hend'
  obtain ⟨result, rfl, hinner⟩ := Paused.Ends.of_attempt hend
  obtain ⟨result', rfl, hinner'⟩ := Paused.CanEnd.of_attempt hend'
  obtain ⟨rfl, hrest⟩ := hp.repeats _ _ _ _ _ _ _ _ hs hgives hinner hinner'
  exact ⟨rfl, hrest⟩

/-- A program that ends at once and takes nothing repeats itself if it does the same to what is
alike. -/
theorem repeats_of_ended {p : Program σ ε α} (state : σ → σ) (result : σ → Except ε α)
    (hp : ∀ s, p s = .ended (state s) (result s))
    (hsupply : ∀ s, (around s).SameSupply (around (state s)))
    (halike : ∀ s s', alike (own s) (own s') →
      result s' = result s ∧ alike (own (state s)) (own (state s'))) :
    p.Repeats around own alike := by
  refine ⟨fun s => ?_, ?_⟩
  · rw [hp]
    exact (hsupply s).later
  · intro s s' took rest t r t' r' hs hgives hend hend'
    rw [hp] at hend hend'
    obtain ⟨rfl, rfl, rfl⟩ := hend.of_ended
    obtain ⟨rfl, rfl⟩ := hend'.of_ended
    obtain ⟨hresult, hstate⟩ := halike s s' hs
    have hnothing : (Surroundings.meter.on around).taken s (state s) = .none := (hsupply s).taken
    -- Nothing was taken, so all of the supply is still there.
    rw [hnothing, Takings.none_append] at hgives
    exact ⟨hresult, hstate, (hsupply s').gives hgives⟩

/-- A result at hand is the same again. -/
theorem repeats_ofExcept (r : Except ε α) :
    (ofExcept r : Program σ ε α).Repeats around own alike :=
  repeats_of_ended id (fun _ => r) (fun _ => rfl) (fun _ => ⟨rfl, rfl, rfl⟩) fun _ _ h => ⟨rfl, h⟩

/-- A value at hand is the same again. -/
theorem repeats_pure (a : α) : (pure a : Program σ ε α).Repeats around own alike :=
  repeats_ofExcept (.ok a)

/-- A failure is the same again. -/
theorem repeats_fail (e : ε) : (fail e : Program σ ε α).Repeats around own alike :=
  repeats_ofExcept (.error e)

/-- A program that looks at the state and goes on repeats itself if it sees of the state only what
is alike. -/
theorem repeats_get_bind {next : σ → Program σ ε α}
    (hnext : ∀ s, (next s).Repeats around own alike)
    (hsame : ∀ s s', alike (own s) (own s') → next s' = next s) :
    (get >>= next).Repeats around own alike := by
  refine ⟨fun s => (hnext s).keeps s, ?_⟩
  intro s s' took rest t r t' r' hs hgives hend hend'
  have hnow : (next s' s').CanEnd _ t' r' := hend'
  rw [hsame s s' hs] at hnow
  exact (hnext s).repeats s s' _ _ _ _ _ _ hs hgives hend hnow

/-- A wait ends in both runs, and others leave alone what is the program's own. -/
theorem repeats_waitFor (wait : σ → Wait) :
    Repeats around own alike (fun s => waitFor (wait s) s : Program σ ε Unit) := by
  refine ⟨fun s => keepsTo_waitFor (wait s) s, ?_⟩
  intro s s' took rest t r t' r' hs hgives hend hend'
  obtain ⟨rfl, hfound, rfl⟩ := Paused.Ends.of_waitFor hend
  obtain ⟨⟨hown, hsupply⟩, rfl⟩ := Paused.CanEnd.of_waitFor hend'
  rw [Meter.taken_self, Takings.none_append] at hgives
  rw [← hfound, ← hown] at hs
  exact ⟨rfl, hs, hsupply.gives hgives⟩

end Program

end RunParams
