import RunParams.Proofs.Program.Endings

/-!
# The stretches of a program

Between two waits a program works undisturbed: from its start, or from the state that it finds when
it is resumed, to the state in which it waits again or ends. Such a piece of work is a stretch.
`Paused.Meets` says that every stretch that ends in a wait keeps to a relation between its two
states, and that the last one keeps to a relation that may also speak of the result, whatever the
others do at the waits.

The rules for what programs are made up of (`Paused.Meets.bind`, `Paused.Meets.waitFor`,
`Paused.Meets.beside`) follow the start of the stretch along, since a stretch goes on from the end
of one part into the next.
-/

namespace RunParams.Paused

variable {σ τ δ ε α β : Type} {found : σ → Prop} {keeps : σ → σ → Prop}
  {post : σ → σ → Except ε α → Prop} {start : σ}

/-- What remains of a program, in a stretch that began in `start`, meets a specification: resumed in
states that are `found`, each stretch that ends in a wait `keeps` what it should, and the last one
returns with `post`. -/
def Meets (found : σ → Prop) (keeps : σ → σ → Prop) (post : σ → σ → Except ε α → Prop) :
    σ → Paused σ ε α → Prop
  | start, ended s r => post start s r
  | start, waiting s _ resume =>
    keeps start s ∧ ∀ s', found s' → Meets found keeps post s' (resume s')

/-- A program that goes on with the value of another meets what it does from the end of the other.
-/
theorem Meets.bind {mid : σ → σ → Except ε α → Prop} {last : σ → σ → Except ε β → Prop}
    {p : Paused σ ε α} {next : α → σ → Paused σ ε β} (h : p.Meets found keeps mid start)
    (hok : ∀ start s a, mid start s (.ok a) → (next a s).Meets found keeps last start)
    (herror : ∀ start s e, mid start s (.error e) → last start s (.error e)) :
    (p.bind next).Meets found keeps last start := by
  induction p generalizing start with
  | ended s r =>
    cases r with
    | ok a => exact hok start s a h
    | error e => exact herror start s e h
  | waiting s w resume ih =>
    obtain ⟨hkeeps, hrest⟩ := h
    exact ⟨hkeeps, fun s' hs' => ih s' (hrest s' hs')⟩

/-- A program of which less is asked in the end meets that, too. -/
theorem Meets.mono {last : σ → σ → Except ε α → Prop} {p : Paused σ ε α}
    (h : p.Meets found keeps post start)
    (hlast : ∀ start s r, post start s r → last start s r) : p.Meets found keeps last start := by
  induction p generalizing start with
  | ended s r => exact hlast start s r h
  | waiting s w resume ih =>
    obtain ⟨hkeeps, hrest⟩ := h
    exact ⟨hkeeps, fun s' hs' => ih s' (hrest s' hs')⟩

/-- A wait ends the stretch, and a new one begins in a state that is found. -/
theorem Meets.waitFor (w : Wait) {s : σ} (hkeeps : keeps start s) :
    (Program.waitFor w s : Paused σ ε Unit).Meets found keeps
      (fun start s r => s = start ∧ found start ∧ r = .ok ()) start :=
  ⟨hkeeps, fun _ hs' => ⟨rfl, hs', rfl⟩⟩

/-- A program beside a state that it shares meets a specification that does not see what it leaves
there, and ends as it may end when nobody else touches its own part. -/
theorem Meets.beside {join : τ → σ → δ} {own : δ → τ} {replace : δ → σ → σ} {rely : δ → δ → Prop}
    {last : σ → σ → Except ε (τ × α) → Prop} {p : Paused δ ε α} {s : σ}
    (hkeeps : ∀ start s d, keeps start s → keeps start (replace d s))
    (hrefl : ∀ s, found s → keeps s s) (hjoin : ∀ d s, rely d (join (own d) s))
    (hend : ∀ start s d r, keeps start s → p.CanEnd rely d r →
      last start (replace d s) (r.map fun a => (own d, a)))
    (hs : keeps start s) : (p.beside join own replace s).Meets found keeps last start := by
  induction p generalizing start s with
  | ended d r => exact hend start s d r hs (.ended d r)
  | waiting d w resume ih =>
    refine ⟨hkeeps start s d hs, fun s' hs' => ?_⟩
    -- A stretch begins anew, and how the rest of it ends is one more way for the whole to end.
    refine ih (join (own d) s') (fun start t e r ht hrest => ?_) (hrefl s' hs')
    exact hend start t e r ht (.waiting (hjoin d s') hrest)

end RunParams.Paused
