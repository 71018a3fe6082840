import RunParams.Proofs.Program.Endings

/-!
# With which errors a program may fail

A program may fail with the errors of its parts only. `Program.FailsWith` says that every error is
one of the `allowed`, as long as the state is `found` lawful at the start and at each wait; the
program leaves it so too. The rules follow what programs are made up of, and where the value of a
part matters to what comes after it, the rule passes on what is known of the value
(`Program.FailsWith.bind`).
-/

namespace RunParams.Program

variable {σ τ ε ε' α β : Type} {rely : σ → σ → Prop} {found : σ → Prop} {allowed : ε → Prop}

/-- Started in a lawful state, a program leaves one, and an error of its is one of the allowed. -/
def FailsWith (rely : σ → σ → Prop) (found : σ → Prop) (allowed : ε → Prop)
    (p : Program σ ε α) : Prop :=
  ∀ s t r, found s → (p s).CanEnd rely t r → found t ∧ ∀ e, r = .error e → allowed e

/-- A program that goes on with the value of another fails as one of the two does. -/
theorem FailsWith.bind {p : Program σ ε α} {next : α → Program σ ε β}
    (hp : p.FailsWith rely found allowed)
    (hnext : ∀ s t a, found s → (p s).CanEnd rely t (.ok a) →
      (next a).FailsWith rely found allowed) :
    (p >>= next).FailsWith rely found allowed := by
  intro s t r hs hend
  rcases Paused.CanEnd.of_bind hend with ⟨u, a, hfirst, hrest⟩ | ⟨e, rfl, hfirst⟩
  · exact hnext s u a hs hfirst u t r (hp s u _ hs hfirst).1 hrest
  · obtain ⟨ht, hallowed⟩ := hp s t _ hs hfirst
    refine ⟨ht, fun e' he' => ?_⟩
    cases he'
    exact hallowed e rfl

/-- More errors may be allowed. -/
theorem FailsWith.mono {allowed' : ε → Prop} {p : Program σ ε α}
    (hp : p.FailsWith rely found allowed) (h : ∀ e, allowed e → allowed' e) :
    p.FailsWith rely found allowed' := by
  intro s t r hs hend
  obtain ⟨ht, hallowed⟩ := hp s t r hs hend
  exact ⟨ht, fun e he => h e (hallowed e he)⟩

/-- A program that ends at once, in a lawful state and without an error. -/
theorem failsWith_of_ended {p : Program σ ε α} (state : σ → σ) (value : σ → α)
    (hp : ∀ s, p s = .ended (state s) (.ok (value s))) (hstate : ∀ s, found s → found (state s)) :
    p.FailsWith rely found allowed := by
  intro s t r hs hend
  rw [hp s] at hend
  obtain ⟨rfl, rfl⟩ := hend.of_ended
  exact ⟨hstate s hs, fun e he => nomatch he⟩

/-- A value at hand is no error. -/
theorem failsWith_pure (a : α) : (pure a : Program σ ε α).FailsWith rely found allowed :=
  failsWith_of_ended id (fun _ => a) (fun _ => rfl) fun _ h => h

/-- A look at the state does not fail. -/
theorem failsWith_get : (get : Program σ ε σ).FailsWith rely found allowed :=
  failsWith_of_ended id id (fun _ => rfl) fun _ h => h

/-- A failure with an allowed error. -/
theorem failsWith_fail {e : ε} (h : allowed e) :
    (fail e : Program σ ε α).FailsWith rely found allowed := by
  intro s t r hs hend
  obtain ⟨rfl, rfl⟩ := hend.of_ended
  refine ⟨hs, fun e' he' => ?_⟩
  cases he'
  exact h

/-- A wait does not fail, and others leave the state lawful. -/
theorem failsWith_waitFor (hrely : ∀ s s', found s → rely s s' → found s') (w : Wait) :
    (waitFor w : Program σ ε Unit).FailsWith rely found allowed := by
  intro s t r hs hend
  obtain ⟨hfound, rfl⟩ := Paused.CanEnd.of_waitFor hend
  exact ⟨hrely s t hs hfound, fun e he => nomatch he⟩

/-- A program whose error is made a value does not fail. -/
theorem FailsWith.attempt {allowed' : ε' → Prop} {p : Program σ ε α}
    (hp : p.FailsWith rely found allowed) :
    (p.attempt : Program σ ε' (Except ε α)).FailsWith rely found allowed' := by
  intro s t r hs hend
  obtain ⟨result, rfl, hinner⟩ := Paused.CanEnd.of_attempt hend
  exact ⟨(hp s t result hs hinner).1, fun e he => nomatch he⟩

/-- A program on a part of a state fails as it does on the part. -/
theorem FailsWith.within {part : τ → σ} {replace : σ → τ → τ} {kept : τ → τ → Prop}
    {lawful : τ → Prop} {p : Program σ ε α} (hp : p.FailsWith rely found allowed)
    (hpart : ∀ s t t', kept (replace s t) t' → rely s (part t'))
    (hfound : ∀ t, lawful t → found (part t))
    (hlawful : ∀ s t, found s → lawful (replace s t)) :
    (p.within part replace).FailsWith kept lawful allowed := by
  intro s t r hs hend
  obtain ⟨u, whole, hinner, -, rfl⟩ := Paused.CanEnd.of_within rely (fun _ => True) hpart
    (fun _ _ _ _ _ => trivial) trivial hend
  obtain ⟨hu, hallowed⟩ := hp (part s) u r (hfound s hs) hinner
  exact ⟨hlawful u whole hu, hallowed⟩

end RunParams.Program
