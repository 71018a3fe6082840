import RunParams.Proofs.Program.Phases
import RunParams.Proofs.Replay.Takings

/-!
# What a program has taken when it ends

A `Meter` reads off two states what has been taken from one to the other. `Paused.Ends` says how a
program may end among others, like `Paused.CanEnd`, and with it what the program has taken: not what
others take at its waits, but what is taken in its own stretches.

What a program takes that is made up of others is what its parts take, one after the other
(`Paused.Ends.of_bind`). A stretch may reach from one part into the next, so the parts have to leave
a state from which the meter goes on (`Meter.later`).
-/

namespace RunParams

/-- Reads off two states what has been taken in between. -/
structure Meter (σ : Type) where
  /-- The second state comes after the first one. -/
  later : σ → σ → Prop
  taken : σ → σ → Takings
  refl : ∀ s, later s s
  trans : ∀ {s t u}, later s t → later t u → later s u
  adds : ∀ {s t u}, later s t → later t u → taken s u = taken s t ++ taken t u

namespace Meter

variable {σ τ : Type}

instance (meter : Meter σ) : Std.Refl meter.later := ⟨meter.refl⟩

instance (meter : Meter σ) : Trans meter.later meter.later meter.later := ⟨meter.trans⟩

/-- Nothing is taken in no time. -/
@[simp] theorem taken_self (meter : Meter σ) (s : σ) : meter.taken s s = .none :=
  Takings.eq_none_of_self_append (meter.adds (meter.refl s) (meter.refl s))

/-- A meter that looks at a part of a state. -/
def on (meter : Meter σ) (part : τ → σ) : Meter τ where
  later := fun s t => meter.later (part s) (part t)
  taken := fun s t => meter.taken (part s) (part t)
  refl := fun s => meter.refl (part s)
  trans := fun h h' => meter.trans h h'
  adds := fun h h' => meter.adds h h'

end Meter

/-- What is taken from surroundings. -/
@[reducible] def Surroundings.meter : Meter Surroundings where
  later := Later
  taken := taken
  refl := Later.refl
  trans := Later.trans
  adds := taken_append

/-- What is taken from a world. -/
@[reducible] def World.meter : Meter World where
  later := Later
  taken := taken
  refl := Later.refl
  trans := Later.trans
  adds := taken_append

namespace Paused

variable {σ τ δ ε α β : Type} {meter : Meter σ} {rely : σ → σ → Prop} {start s t : σ}
  {took : Takings} {r : Except ε α}

/-- The ways in which a program may end when others keep to a relation at its waits, and what it has
then taken since a stretch began. -/
inductive Ends (meter : Meter σ) (rely : σ → σ → Prop) :
    σ → Paused σ ε α → Takings → σ → Except ε α → Prop
  | ended (start s : σ) (r : Except ε α) :
    Ends meter rely start (.ended s r) (meter.taken start s) s r
  | waiting {start s s' t : σ} {w : Wait} {resume : σ → Paused σ ε α} {later : Takings}
    {r : Except ε α} (found : rely s s') (rest : Ends meter rely s' (resume s') later t r) :
    Ends meter rely start (.waiting s w resume) (meter.taken start s ++ later) t r

/-- A program ends as it may end whatever it has taken. -/
theorem Ends.canEnd {p : Paused σ ε α} (h : p.Ends meter rely start took t r) :
    p.CanEnd rely t r := by
  induction h with
  | ended start s r => exact .ended s r
  | waiting found _ ih => exact .waiting found ih

/-- A program that may end has taken something then. -/
theorem CanEnd.ends {p : Paused σ ε α} (h : p.CanEnd rely t r) (meter : Meter σ) (start : σ) :
    ∃ took, p.Ends meter rely start took t r := by
  induction h generalizing start with
  | ended s r => exact ⟨_, .ended start s r⟩
  | @waiting s s' t w resume r found _ ih =>
    obtain ⟨later, hrest⟩ := ih s'
    exact ⟨_, .waiting found hrest⟩

/-- What has ended has taken what was taken in its last stretch. -/
theorem Ends.of_ended {r' : Except ε α}
    (h : (.ended s r : Paused σ ε α).Ends meter rely start took t r') :
    took = meter.taken start s ∧ t = s ∧ r' = r := by
  cases h
  exact ⟨rfl, rfl, rfl⟩

/-- A stretch that began earlier takes what was taken before, and then the rest. -/
theorem Ends.since {p : Paused σ ε α} (hstart : meter.later start s)
    (hp : p.KeepsTo meter.later s) (h : p.Ends meter rely start took t r) :
    ∃ rest, took = meter.taken start s ++ rest ∧ p.Ends meter rely s rest t r := by
  cases h with
  | ended =>
    have hend : meter.later s t := hp
    exact ⟨_, meter.adds hstart hend, .ended s t r⟩
  | @waiting _ u _ _ w resume later r found rest =>
    have hwait : meter.later s u := hp.1
    refine ⟨meter.taken s u ++ later, ?_, .waiting found rest⟩
    rw [meter.adds hstart hwait, Takings.append_assoc]

/-- A wait takes nothing. -/
theorem Ends.of_waitFor {w : Wait} {r : Except ε Unit}
    (h : (Program.waitFor w s : Paused σ ε Unit).Ends meter rely start took t r) :
    took = meter.taken start s ∧ rely s t ∧ r = .ok () := by
  cases h with
  | waiting found rest =>
    obtain ⟨rfl, rfl, rfl⟩ := rest.of_ended
    rw [Meter.taken_self, Takings.append_none]
    exact ⟨rfl, found, rfl⟩

/-- When a program goes on with the value of another, the other one ends first and has taken its
share, and either it fails or the program goes on and takes the rest. -/
theorem Ends.of_bind {p : Paused σ ε α} {next : α → σ → Paused σ ε β} {r : Except ε β}
    (hp : p.KeepsTo meter.later start)
    (hnext : ∀ a s, (next a s).KeepsTo meter.later s)
    (h : (p.bind next).Ends meter rely start took t r) :
    (∃ s a first rest, took = first ++ rest ∧ p.Ends meter rely start first s (.ok a) ∧
        (next a s).Ends meter rely s rest t r) ∨
      ∃ e, r = .error e ∧ p.Ends meter rely start took t (.error e) := by
  induction p generalizing start took with
  | ended s result =>
    cases result with
    | ok a =>
      -- The stretch reaches from the first part into the second.
      obtain ⟨rest, htook, hrest⟩ := Ends.since (p := next a s) hp (hnext a s) h
      exact Or.inl ⟨s, a, _, rest, htook, .ended start s _, hrest⟩
    | error e =>
      obtain ⟨rfl, rfl, rfl⟩ := Ends.of_ended (s := s) h
      exact Or.inr ⟨e, rfl, .ended start t _⟩
  | waiting s w resume ih =>
    cases h with
    -- The takings of a wait are those before it and those of what follows.
    | @waiting _ _ s' _ _ _ later _ found rest =>
      rcases ih s' (hp.2 s' trivial) rest with
        ⟨u, a, first, second, hlater, hfirst, hsecond⟩ | ⟨e, hr, hfirst⟩
      · refine Or.inl ⟨u, a, meter.taken start s ++ first, second, ?_, .waiting found hfirst,
          hsecond⟩
        rw [hlater, Takings.append_assoc]
      · exact Or.inr ⟨e, hr, .waiting found hfirst⟩

/-- What ends at once and takes nothing may be left out of account. -/
theorem Ends.of_ended_bind {a : α} {next : α → σ → Paused σ ε β} {r : Except ε β}
    (hlater : meter.later start s) (hnothing : meter.taken start s = .none)
    (hnext : (next a s).KeepsTo meter.later s)
    (h : ((.ended s (.ok a) : Paused σ ε α).bind next).Ends meter rely start took t r) :
    (next a s).Ends meter rely s took t r := by
  obtain ⟨rest, rfl, hrest⟩ := Ends.since (p := next a s) hlater hnext h
  rw [hnothing, Takings.none_append]
  exact hrest

/-- A program on a part of a state takes what it does on the part alone, and the rest of the state
is as the others have left it. -/
theorem Ends.of_within {part : τ → σ} {replace : σ → τ → τ} {kept : τ → τ → Prop}
    {outer : Meter τ} (meter : Meter σ) (rely : σ → σ → Prop) (frame : τ → Prop)
    (hmeter : ∀ s t, outer.taken t (replace s t) = meter.taken (part t) s)
    (hpart : ∀ s t t', kept (replace s t) t' → rely s (part t'))
    (hframe : ∀ s t t', frame t → kept (replace s t) t' → frame t')
    {p : Paused σ ε α} {whole t : τ} (hwhole : frame whole)
    (h : (p.within part replace whole).Ends outer kept whole took t r) :
    ∃ s whole', p.Ends meter rely (part whole) took s r ∧ frame whole' ∧
      t = replace s whole' := by
  induction p generalizing whole took with
  | ended s result =>
    obtain ⟨rfl, rfl, rfl⟩ := Ends.of_ended (s := replace s whole) h
    rw [hmeter]
    exact ⟨s, whole, .ended _ s _, hwhole, rfl⟩
  | waiting s w resume ih =>
    cases h with
    | @waiting _ _ found _ _ _ later _ hfound rest =>
      -- Others have moved, and what the part relies on is still true.
      have hnext : frame found := hframe s whole found hwhole hfound
      obtain ⟨u, whole', hend, hframe', ht⟩ := ih _ hnext rest
      rw [hmeter]
      exact ⟨u, whole', .waiting (hpart s whole found hfound) hend, hframe', ht⟩

/-- A program beside a state that it shares takes what it does when nobody else touches its own
part, and the rest is as the others have left it. -/
theorem Ends.of_beside {join : τ → σ → δ} {own : δ → τ} {replace : δ → σ → σ}
    {kept : σ → σ → Prop} (inner : Meter δ) (rely : δ → δ → Prop) (frame : σ → Prop)
    (hmeter : ∀ c s d, meter.taken s (replace d s) = inner.taken (join c s) d)
    (hjoin : ∀ d s s', frame s → kept (replace d s) s' → rely d (join (own d) s'))
    (hframe : ∀ d s s', frame s → kept (replace d s) s' → frame s')
    {p : Paused δ ε α} {c : τ} {s t : σ} {r : Except ε (τ × α)} (hs : frame s)
    (h : (p.beside join own replace s).Ends meter kept s took t r) :
    ∃ d s' result, p.Ends inner rely (join c s) took d result ∧ frame s' ∧ t = replace d s' ∧
      r = result.map fun a => (own d, a) := by
  induction p generalizing c s took with
  | ended d result =>
    obtain ⟨rfl, rfl, rfl⟩ := Ends.of_ended (s := replace d s) h
    rw [hmeter c]
    exact ⟨d, s, result, .ended _ d _, hs, rfl, rfl⟩
  | waiting d w resume ih =>
    cases h with
    | @waiting _ _ found _ _ _ later _ hfound rest =>
      have hnext : frame found := hframe d s found hs hfound
      obtain ⟨e, s', result, hend, hframe', ht, hr⟩ := ih _ hnext rest
      rw [hmeter c]
      exact ⟨e, s', result, .waiting (hjoin d s found hs hfound) hend, hframe', ht, hr⟩

/-- A program whose error is made a value takes what it does otherwise. -/
theorem Ends.of_attempt {ε' : Type} {p : Paused σ ε α} {r : Except ε' (Except ε α)}
    (h : p.attempt.Ends meter rely start took t r) :
    ∃ result, r = .ok result ∧ p.Ends meter rely start took t result := by
  induction p generalizing start took with
  | ended s result =>
    obtain ⟨rfl, rfl, rfl⟩ := Ends.of_ended (s := s) h
    exact ⟨result, rfl, .ended start t result⟩
  | waiting s w resume ih =>
    cases h with
    | @waiting _ _ s' _ _ _ later _ found rest =>
      obtain ⟨result, hr, hend⟩ := ih _ rest
      exact ⟨result, hr, .waiting found hend⟩

end Paused

end RunParams
