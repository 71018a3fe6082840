import RunParams.Context.Bind

/-!
# How a program may end among others

While a program waits, others work on the state that it shares with them. `Paused.CanEnd rely` says
how it may end when all that is known of them is a relation `rely` between the state that it has
left and the one that it finds: in which state, and with which value or error. A program that is
abandoned does not end; `Paused.CanStop` are the states in which it may be left, at any of its waits
or at its end.

A program that is made up of others ends as they let it. What is shown here is what an ending of the
whole tells about the endings of its parts (`Paused.CanEnd.of_bind`, `Paused.CanEnd.of_within` and
the like). A program on its own is among those that others let be (`Paused.canEnd_alone`), so every
program can end. For the programs that bind the declarations of a run the relation is
`Desk.SameContext`: nobody else has the context yet.
-/

namespace RunParams

namespace Paused

variable {σ τ δ ε α β : Type} {rely : σ → σ → Prop}

/-- The ways in which a program may end when others keep to a relation at its waits. -/
inductive CanEnd (rely : σ → σ → Prop) : Paused σ ε α → σ → Except ε α → Prop
  | ended (s : σ) (r : Except ε α) : CanEnd rely (.ended s r) s r
  | waiting {s s' t : σ} {w : Wait} {resume : σ → Paused σ ε α} {r : Except ε α}
    (found : rely s s') (rest : CanEnd rely (resume s') t r) :
    CanEnd rely (.waiting s w resume) t r

/-- The states in which a program may be left when others keep to a relation at its waits: it is
abandoned where it waits, or it has ended. -/
inductive CanStop (rely : σ → σ → Prop) : Paused σ ε α → σ → Prop
  | here (p : Paused σ ε α) : CanStop rely p p.state
  | later {s s' t : σ} {w : Wait} {resume : σ → Paused σ ε α}
    (found : rely s s') (rest : CanStop rely (resume s') t) : CanStop rely (.waiting s w resume) t

/-- What has ended can end in no other way. -/
theorem CanEnd.of_ended {s t : σ} {r r' : Except ε α} (h : CanEnd rely (.ended s r) t r') :
    t = s ∧ r' = r := by
  cases h
  exact ⟨rfl, rfl⟩

/-- When the others keep to less, a program may end in more ways. -/
theorem CanEnd.mono {rely' : σ → σ → Prop} {p : Paused σ ε α} {t : σ} {r : Except ε α}
    (h : CanEnd rely p t r) (hrely : ∀ s s', rely s s' → rely' s s') : CanEnd rely' p t r := by
  induction h with
  | ended s r => exact .ended s r
  | waiting found _ ih => exact .waiting (hrely _ _ found) ih

/-- Where a program ends it may be left. -/
theorem CanEnd.canStop {p : Paused σ ε α} {t : σ} {r : Except ε α} (h : p.CanEnd rely t r) :
    p.CanStop rely t := by
  induction h with
  | ended s r => exact .here (.ended s r)
  | waiting found _ ih => exact .later found ih

/-- When a program goes on with the value of another, the other one ends first, and either it fails
or the program goes on. -/
theorem CanEnd.of_bind {p : Paused σ ε α} {next : α → σ → Paused σ ε β} {t : σ} {r : Except ε β}
    (h : CanEnd rely (p.bind next) t r) :
    (∃ s a, CanEnd rely p s (.ok a) ∧ CanEnd rely (next a s) t r) ∨
      ∃ e, r = .error e ∧ CanEnd rely p t (.error e) := by
  induction p with
  | ended s result =>
    cases result with
    | ok a => exact Or.inl ⟨s, a, .ended s _, h⟩
    | error e =>
      obtain ⟨rfl, rfl⟩ := h.of_ended
      exact Or.inr ⟨e, rfl, .ended t _⟩
  | waiting s w resume ih =>
    -- The whole waits where its first part does, and both go on from what they find there.
    cases h with
    | waiting found rest =>
      rcases ih _ rest with ⟨u, a, hfirst, hnext⟩ | ⟨e, hr, hfirst⟩
      · exact Or.inl ⟨u, a, .waiting found hfirst, hnext⟩
      · exact Or.inr ⟨e, hr, .waiting found hfirst⟩

/-- When the whole succeeds, so does what comes first. -/
theorem CanEnd.of_bind_ok {p : Paused σ ε α} {next : α → σ → Paused σ ε β} {t : σ} {b : β}
    (h : CanEnd rely (p.bind next) t (.ok b)) :
    ∃ s a, CanEnd rely p s (.ok a) ∧ CanEnd rely (next a s) t (.ok b) := by
  rcases h.of_bind with hok | ⟨e, hr, -⟩
  · exact hok
  · cases hr

/-- A program on a part of a state ends as it does on the part alone, and the rest of the state is
as the others have left it: whatever they keep of it is still there. -/
theorem CanEnd.of_within {part : τ → σ} {replace : σ → τ → τ} {kept : τ → τ → Prop}
    (rely : σ → σ → Prop) (frame : τ → Prop)
    (hpart : ∀ s t t', kept (replace s t) t' → rely s (part t'))
    (hframe : ∀ s t t', frame t → kept (replace s t) t' → frame t')
    {p : Paused σ ε α} {whole t : τ} {r : Except ε α} (hwhole : frame whole)
    (h : CanEnd kept (p.within part replace whole) t r) :
    ∃ s whole', CanEnd rely p s r ∧ frame whole' ∧ t = replace s whole' := by
  induction p generalizing whole with
  | ended s result =>
    obtain ⟨rfl, rfl⟩ := h.of_ended
    exact ⟨s, whole, .ended s _, hwhole, rfl⟩
  | waiting s w resume ih =>
    cases h with
    | @waiting _ found _ _ _ _ hfound rest =>
      have hnext : frame found := hframe s whole found hwhole hfound
      obtain ⟨u, whole', hend, hframe', ht⟩ := ih _ hnext rest
      exact ⟨u, whole', .waiting (hpart s whole found hfound) hend, hframe', ht⟩

/-- A program beside a state that it shares ends as it does when nobody else touches its own part,
and the rest is as the others have left it. -/
theorem CanEnd.of_beside {join : τ → σ → δ} {own : δ → τ} {replace : δ → σ → σ}
    {kept : σ → σ → Prop} (rely : δ → δ → Prop) (frame : σ → Prop)
    (hjoin : ∀ d s s', frame s → kept (replace d s) s' → rely d (join (own d) s'))
    (hframe : ∀ d s s', frame s → kept (replace d s) s' → frame s')
    {p : Paused δ ε α} {s t : σ} {r : Except ε (τ × α)} (hs : frame s)
    (h : CanEnd kept (p.beside join own replace s) t r) :
    ∃ d s' result, CanEnd rely p d result ∧ frame s' ∧ t = replace d s' ∧
      r = result.map fun a => (own d, a) := by
  induction p generalizing s with
  | ended d result =>
    obtain ⟨rfl, rfl⟩ := h.of_ended
    exact ⟨d, s, result, .ended d _, hs, rfl, rfl⟩
  | waiting d w resume ih =>
    cases h with
    | @waiting _ found _ _ _ _ hfound rest =>
      have hnext : frame found := hframe d s found hs hfound
      obtain ⟨e, s', result, hend, hframe', ht, hr⟩ := ih _ hnext rest
      exact ⟨e, s', result, .waiting (hjoin d s found hs hfound) hend, hframe', ht, hr⟩

/-- A program whose error is made a value does not fail. -/
theorem CanEnd.of_attempt {ε' : Type} {p : Paused σ ε α} {t : σ} {r : Except ε' (Except ε α)}
    (h : CanEnd rely p.attempt t r) : ∃ result, r = .ok result ∧ CanEnd rely p t result := by
  induction p with
  | ended s result =>
    obtain ⟨rfl, rfl⟩ := h.of_ended
    exact ⟨result, rfl, .ended t result⟩
  | waiting s w resume ih =>
    cases h with
    | waiting found rest =>
      obtain ⟨result, hr, hend⟩ := ih _ rest
      exact ⟨result, hr, .waiting found hend⟩

/-- A wait ends in the state that is found. -/
theorem CanEnd.of_waitFor {w : Wait} {s t : σ} {r : Except ε Unit}
    (h : CanEnd rely (Program.waitFor w s) t r) : rely s t ∧ r = .ok () := by
  cases h with
  | waiting found rest =>
    obtain ⟨rfl, rfl⟩ := rest.of_ended
    exact ⟨found, rfl⟩

/-- A program on its own ends as it may end among others, if passing a wait keeps to the relation.
-/
theorem canEnd_alone (pass : Wait → σ → σ) (hpass : ∀ w s, rely s (pass w s)) (p : Paused σ ε α) :
    CanEnd rely p (p.alone pass).2 (p.alone pass).1 := by
  induction p with
  | ended s r => exact .ended s r
  | waiting s w resume ih => exact .waiting (hpass w s) (ih (pass w s))

end Paused

namespace Desk

/-- While a context is bound, nobody else touches it. -/
def SameContext (d d' : Desk) : Prop := d'.context = d.context

/-- A program that nobody disturbs ends as it may end among others. -/
theorem canEnd_alone {α : Type} (p : Paused Desk BindingError α) :
    p.CanEnd SameContext (p.alone fun _ d => d).2 (p.alone fun _ d => d).1 := by
  have hpass : ∀ (_ : Wait) (d : Desk), SameContext d d := fun _ _ => rfl
  exact Paused.canEnd_alone (fun _ d => d) hpass p

end Desk

end RunParams
