import RunParams.Proofs.Program.Endings
import RunParams.Proofs.Program.Phases

/-!
# What the phases of a program tell about its history

When all that others do at the waits of a program keeps to a relation, the phases that the program
goes through tell how it ends: an invariant that ties the phase to the state, that the stretches of
the program preserve and that the others leave alone, holds when the last stretch begins
(`Paused.Follows.of_canEnd`).

`Paused.Stretches` are the stretches of a program up to some moment: the state in which each of them
began, and the state in which it ended. What every step to the next phase amounts to is said of them
all by `Paused.Follows.of_stretches`.
-/

namespace RunParams.Paused

variable {σ ε α κ κ' : Type} {rely : σ → σ → Prop}
  {step : κ → σ → σ → Wait → κ → Prop} {last : κ → σ → σ → Except ε α → Prop}
  {step' : κ' → σ → σ → Wait → κ' → Prop} {last' : κ' → σ → σ → Except ε α → Prop}
  {q : κ} {start t : σ} {p : Paused σ ε α} {r : Except ε α}

/-- Phases may be seen as other phases, of which less is asked. -/
theorem Follows.map (f : κ → κ') (h : p.Follows step last q start)
    (hstep : ∀ q start s w q', step q start s w q' → step' (f q) start s w (f q'))
    (hlast : ∀ q start s r, last q start s r → last' (f q) start s r) :
    p.Follows step' last' (f q) start := by
  induction p generalizing q start with
  | ended s r => exact hlast q start s r h
  | waiting s w resume ih =>
    obtain ⟨q', hfirst, hrest⟩ := h
    exact ⟨f q', hstep q start s w q' hfirst, fun s' => ih s' (hrest s')⟩

/-- An invariant of the phases holds in the state in which the last stretch begins, if others leave
it alone at the waits. -/
theorem Follows.of_canEnd (inv : κ → σ → Prop) (h : p.Follows step last q start)
    (hinv : inv q start)
    (hstep : ∀ q start s w q' s', inv q start → step q start s w q' → rely s s' → inv q' s')
    (hend : p.CanEnd rely t r) : ∃ q a, inv q a ∧ last q a t r := by
  induction hend generalizing q start with
  | ended s r => exact ⟨q, start, hinv, h⟩
  | @waiting s s' t w resume r found _ ih =>
    obtain ⟨q', hfirst, hrest⟩ := h
    exact ih (hrest s') (hstep q start s w q' s' hinv hfirst found)

/-- The stretches of a program up to some moment, when others keep to a relation at its waits. The
first one begins in a given state, and the last one is over too. -/
inductive Stretches (rely : σ → σ → Prop) : σ → Paused σ ε α → List (σ × σ) → Prop
  | first (start : σ) (p : Paused σ ε α) : Stretches rely start p [(start, p.state)]
  | next {start s s' : σ} {w : Wait} {resume : σ → Paused σ ε α} {later : List (σ × σ)}
    (found : rely s s') (rest : Stretches rely s' (resume s') later) :
    Stretches rely start (.waiting s w resume) ((start, s) :: later)

/-- What each step to the next phase amounts to holds of all stretches of a program up to some
moment, if others leave an invariant of the phases alone at the waits. -/
theorem Follows.of_stretches (inv : κ → σ → Prop) (rel : σ → σ → Prop) {stretches : List (σ × σ)}
    (h : p.Follows step last q start) (hinv : inv q start)
    (hstep : ∀ q start s w q', inv q start → step q start s w q' →
      rel start s ∧ ∀ s', rely s s' → inv q' s')
    (hlast : ∀ q start s r, inv q start → last q start s r → rel start s)
    (hstretches : p.Stretches rely start stretches) : ∀ x ∈ stretches, rel x.1 x.2 := by
  induction hstretches generalizing q with
  | first start p =>
    intro x hx
    cases List.mem_singleton.mp hx
    -- A stretch ends with the part or at a wait, and in both cases it is of the kind claimed.
    cases p with
    | ended s r => exact hlast q start s r hinv h
    | waiting s w resume =>
      obtain ⟨q', hfirst, -⟩ := h
      exact (hstep q start s w q' hinv hfirst).1
  | @next start s s' w resume later found _ ih =>
    obtain ⟨q', hfirst, hrest⟩ := h
    obtain ⟨hrel, hfound⟩ := hstep q start s w q' hinv hfirst
    intro x hx
    rcases List.mem_cons.mp hx with rfl | hlater
    · exact hrel
    · exact ih (hrest s') (hfound s' found) x hlater

/-- The stretches of a program on its own, from a state in which the first one begins. -/
def history (pass : Wait → σ → σ) : σ → Paused σ ε α → List (σ × σ)
  | start, ended s _ => [(start, s)]
  | start, waiting s w resume => (start, s) :: history pass (pass w s) (resume (pass w s))

/-- A program on its own is among those that others let be. -/
theorem stretches_history (pass : Wait → σ → σ) (hpass : ∀ w s, rely s (pass w s)) (start : σ)
    (p : Paused σ ε α) : Stretches rely start p (history pass start p) := by
  induction p generalizing start with
  | ended s r => exact .first start (.ended s r)
  | waiting s w resume ih => exact .next (hpass w s) (ih (pass w s) (pass w s))

end RunParams.Paused
