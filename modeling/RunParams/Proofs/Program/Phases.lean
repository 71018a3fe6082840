import RunParams.Proofs.Program.Stretches

/-!
# Programs that go through phases

`Paused.Meets` asks the same of all stretches of a program but the last one. Where a stretch may do
more or less according to what came before it, the program is in a phase, and `Paused.Follows` says
from phase to phase what its stretches do. The phase is not part of the program: it stands for what
is to be remembered of the stretches so far.

Most parts of a program do the same harmless things wherever they stand: they keep to one relation
that holds from each state to itself and may be chained (`Program.KeepsTo`). Such a part goes along
with any phases (`Paused.KeepsTo.follows`).
-/

namespace RunParams

variable {σ τ δ κ ε ε' α β : Type}

namespace Paused

variable {step : κ → σ → σ → Wait → κ → Prop} {last : κ → σ → σ → Except ε α → Prop}
  {keeps : σ → σ → Prop} {q q' : κ} {start s : σ}

/-- What remains of a program that is in a phase, in a stretch that began in `start`: each stretch
that ends in a wait makes a `step` to the next phase, and the last one returns as `last` says. -/
def Follows (step : κ → σ → σ → Wait → κ → Prop) (last : κ → σ → σ → Except ε α → Prop) :
    κ → σ → Paused σ ε α → Prop
  | q, start, ended s r => last q start s r
  | q, start, waiting s w resume =>
    ∃ q', step q start s w q' ∧ ∀ s', Follows step last q' s' (resume s')

/-- A program that goes on with the value of another goes on from the phase in which the other one
ends. -/
theorem Follows.bind {mid : κ → σ → σ → Except ε α → Prop}
    {last : κ → σ → σ → Except ε β → Prop} {p : Paused σ ε α} {next : α → σ → Paused σ ε β}
    (h : p.Follows step mid q start)
    (hok : ∀ q start s a, mid q start s (.ok a) → (next a s).Follows step last q start)
    (herror : ∀ q start s e, mid q start s (.error e) → last q start s (.error e)) :
    (p.bind next).Follows step last q start := by
  induction p generalizing q start with
  | ended s r =>
    cases r with
    | ok a => exact hok q start s a h
    | error e => exact herror q start s e h
  | waiting s w resume ih =>
    obtain ⟨q', hstep, hrest⟩ := h
    exact ⟨q', hstep, fun s' => ih s' (hrest s')⟩

/-- A program whose error is made a value goes through the same phases. -/
theorem Follows.attempt {p : Paused σ ε α} (h : p.Follows step last q start) :
    (p.attempt : Paused σ ε' (Except ε α)).Follows step
      (fun q start s r => ∃ r', r = .ok r' ∧ last q start s r') q start := by
  induction p generalizing q start with
  | ended s r => exact ⟨r, rfl, h⟩
  | waiting s w resume ih =>
    obtain ⟨q', hstep, hrest⟩ := h
    exact ⟨q', hstep, fun s' => ih s' (hrest s')⟩

/-- A program that returns as it should returns as less would be asked. -/
theorem Follows.mono {last' : κ → σ → σ → Except ε α → Prop} {p : Paused σ ε α}
    (h : p.Follows step last q start)
    (hlast : ∀ q start s r, last q start s r → last' q start s r) :
    p.Follows step last' q start := by
  induction p generalizing q start with
  | ended s r => exact hlast q start s r h
  | waiting s w resume ih =>
    obtain ⟨q', hstep, hrest⟩ := h
    exact ⟨q', hstep, fun s' => ih s' (hrest s')⟩

/-! ## Parts that keep to one relation -/

/-- What remains of a program, in a stretch that began in `start`, keeps to a relation in each of
its stretches. -/
def KeepsTo (rel : σ → σ → Prop) (start : σ) (p : Paused σ ε α) : Prop :=
  p.Meets (fun _ => True) rel (fun s s' _ => rel s s') start

variable {rel : σ → σ → Prop}

/-- What keeps to a relation also does so in a stretch that began earlier. -/
theorem KeepsTo.after [Trans rel rel rel] {p : Paused σ ε α} (h : p.KeepsTo rel s)
    (hstart : rel start s) : p.KeepsTo rel start := by
  cases p with
  | ended t r =>
    have hend : rel s t := h
    exact (Trans.trans hstart hend : rel start t)
  | waiting t w resume =>
    obtain ⟨hwait, hrest⟩ := h
    exact ⟨Trans.trans hstart hwait, hrest⟩

/-- A program that keeps to a relation, as the others do at its waits, has kept to it wherever it is
left. -/
theorem KeepsTo.of_canStop [Trans rel rel rel] {rely : σ → σ → Prop} {p : Paused σ ε α} {t : σ}
    (h : p.KeepsTo rel start) (hrely : ∀ s s', rely s s' → rel s s') (hstop : p.CanStop rely t) :
    rel start t := by
  induction hstop generalizing start with
  | here p =>
    cases p with
    | ended s r => exact h
    | waiting s w resume => exact h.1
  | @later s s' t w resume found _ ih =>
    have hwait : rel start s := h.1
    have hfound : rel s s' := hrely s s' found
    have hrest : rel s' t := ih (h.2 s' trivial)
    exact Trans.trans (Trans.trans hwait hfound : rel start s') hrest

/-- A program that goes through phases keeps to a relation that all its stretches do. -/
theorem Follows.keepsTo {p : Paused σ ε α} (h : p.Follows step last q start)
    (hstep : ∀ q start s w q', step q start s w q' → rel start s)
    (hlast : ∀ q start s r, last q start s r → rel start s) : p.KeepsTo rel start := by
  induction p generalizing q start with
  | ended s r => exact hlast q start s r h
  | waiting s w resume ih =>
    obtain ⟨q', hfirst, hrest⟩ := h
    exact ⟨hstep q start s w q' hfirst, fun s' _ => ih s' (hrest s')⟩

/-- What keeps to a relation that is harmless in a phase stays in that phase. -/
theorem KeepsTo.follows {p : Paused σ ε α} (h : p.KeepsTo rel start)
    (hstep : ∀ start s w, rel start s → step q start s w q) :
    p.Follows step (fun q' start s _ => q' = q ∧ rel start s) q start := by
  induction p generalizing start with
  | ended s r => exact ⟨rfl, h⟩
  | waiting s w resume ih => exact ⟨q, hstep start s w h.1, fun s' => ih s' (h.2 s' trivial)⟩

/-- What keeps to a relation from the middle of a stretch on takes the step to the next phase at its
first wait and then stays there, or it ends before that. -/
theorem KeepsTo.follows_from {p : Paused σ ε α} (h : p.KeepsTo rel s) (q' : κ)
    (hfirst : ∀ s' w, rel s s' → step q start s' w q')
    (hlater : ∀ a s' w, rel a s' → step q' a s' w q') :
    p.Follows step (fun q'' a s' _ => q'' = q ∧ a = start ∧ rel s s' ∨ q'' = q' ∧ rel a s')
      q start := by
  cases p with
  | ended s' r => exact .inl ⟨rfl, rfl, h⟩
  | waiting s' w resume =>
    refine ⟨q', hfirst s' w h.1, fun found => ?_⟩
    have hrest : (resume found).KeepsTo rel found := h.2 found trivial
    exact (hrest.follows hlater).mono fun _ _ _ _ hlast => .inr hlast

end Paused

namespace Program

variable {rel : σ → σ → Prop}

/-- Every stretch of a program keeps to a relation, whatever the others do at its waits. -/
def KeepsTo (rel : σ → σ → Prop) (p : Program σ ε α) : Prop := ∀ s, (p s).KeepsTo rel s

/-- Every program keeps to a relation that holds anyway. -/
theorem keepsTo_of_forall (h : ∀ s s', rel s s') (p : Program σ ε α) : p.KeepsTo rel := by
  have hpaused : ∀ (p : Paused σ ε α) (start : σ), p.KeepsTo rel start := by
    intro p
    induction p with
    | ended s r => exact fun start => h start s
    | waiting s w resume ih => exact fun start => ⟨h start s, fun s' _ => ih s' s'⟩
  exact fun s => hpaused (p s) s

/-- A program that keeps to a relation keeps to what follows from it. -/
theorem KeepsTo.mono {rel' : σ → σ → Prop} {p : Program σ ε α} (hp : p.KeepsTo rel)
    (h : ∀ s s', rel s s' → rel' s s') : p.KeepsTo rel' := by
  have hpaused : ∀ {p : Paused σ ε α} {start : σ}, p.KeepsTo rel start →
      p.KeepsTo rel' start := by
    intro p
    induction p with
    | ended s r => exact fun hp => h _ s hp
    | waiting s w resume ih => exact fun hp => ⟨h _ s hp.1, fun s' hs' => ih s' (hp.2 s' hs')⟩
  exact fun s => hpaused (hp s)

/-- A program that keeps to two relations keeps to both at once. -/
theorem KeepsTo.both {rel' : σ → σ → Prop} {p : Program σ ε α} (hp : p.KeepsTo rel)
    (hp' : p.KeepsTo rel') : p.KeepsTo fun s s' => rel s s' ∧ rel' s s' := by
  have hpaused : ∀ {p : Paused σ ε α} {start : σ}, p.KeepsTo rel start → p.KeepsTo rel' start →
      p.KeepsTo (fun s s' => rel s s' ∧ rel' s s') start := by
    intro p
    induction p with
    | ended s r => exact fun hp hp' => ⟨hp, hp'⟩
    | waiting s w resume ih =>
      exact fun hp hp' => ⟨⟨hp.1, hp'.1⟩, fun s' hs' => ih s' (hp.2 s' hs') (hp'.2 s' hs')⟩
  exact fun s => hpaused (hp s) (hp' s)

section Harmless

variable [Std.Refl rel]

/-- A result at hand changes nothing. -/
theorem keepsTo_ofExcept (r : Except ε α) : (ofExcept r : Program σ ε α).KeepsTo rel :=
  fun s => Std.Refl.refl (r := rel) s

/-- A value at hand changes nothing. -/
theorem keepsTo_pure (a : α) : (pure a : Program σ ε α).KeepsTo rel :=
  keepsTo_ofExcept (.ok a)

/-- A failure changes nothing. -/
theorem keepsTo_fail (e : ε) : (fail e : Program σ ε α).KeepsTo rel :=
  keepsTo_ofExcept (.error e)

/-- A look at the state changes nothing. -/
theorem keepsTo_get : (get : Program σ ε σ).KeepsTo rel := fun s => Std.Refl.refl (r := rel) s

/-- A wait changes nothing. -/
theorem keepsTo_waitFor (w : Wait) : (waitFor w : Program σ ε Unit).KeepsTo rel := by
  have hrefl : ∀ s, rel s s := Std.Refl.refl
  exact fun s => ⟨hrefl s, fun s' _ => hrefl s'⟩

end Harmless

/-- A program beside a state that it shares keeps to a relation that does not see what it leaves
there. -/
theorem keepsTo_beside {join : τ → σ → δ} {own : δ → τ} {replace : δ → σ → σ} {first : τ}
    {p : Program δ ε α} (hreplace : ∀ s d, rel s (replace d s)) :
    (p.beside join own replace first).KeepsTo rel := by
  have hpaused : ∀ (p : Paused δ ε α) (s : σ),
      (p.beside join own replace s).KeepsTo rel s := by
    intro p
    induction p with
    | ended d r => exact fun s => hreplace s d
    | waiting d w resume ih => exact fun s => ⟨hreplace s d, fun s' _ => ih (join (own d) s') s'⟩
  exact fun s => hpaused _ s

/-- A program beside a state that it shares keeps to a relation on that state when what it does to
both together does. -/
theorem KeepsTo.beside {inner : δ → δ → Prop} {join : τ → σ → δ} {own : δ → τ}
    {replace : δ → σ → σ} {p : Program δ ε α} (hp : p.KeepsTo inner)
    (hreplace : ∀ c s d, inner (join c s) d → rel s (replace d s)) (first : τ) :
    (p.beside join own replace first).KeepsTo rel := by
  have hpaused : ∀ {p : Paused δ ε α} {c : τ} {s : σ}, p.KeepsTo inner (join c s) →
      (p.beside join own replace s).KeepsTo rel s := by
    intro p
    induction p with
    | ended d r => exact fun h => hreplace _ _ d h
    | waiting d w resume ih =>
      exact fun h => ⟨hreplace _ _ d h.1, fun s' _ => ih _ (h.2 _ trivial)⟩
  exact fun s => hpaused (hp (join first s))

/-- A program made of two keeps to a relation when both parts do. -/
theorem KeepsTo.bind [Trans rel rel rel] {p : Program σ ε α} {next : α → Program σ ε β}
    (hp : p.KeepsTo rel) (hnext : ∀ a, (next a).KeepsTo rel) : (p >>= next).KeepsTo rel := by
  intro s
  refine Paused.Meets.bind (hp s) (fun start s a hmid => ?_) fun _ _ _ hmid => hmid
  exact (hnext a s).after hmid

/-- A program whose error is made a value keeps to the same relation. -/
theorem KeepsTo.attempt {p : Program σ ε α} (hp : p.KeepsTo rel) :
    (p.attempt : Program σ ε' (Except ε α)).KeepsTo rel := by
  have hpaused : ∀ {p : Paused σ ε α} {start : σ}, p.KeepsTo rel start →
      (p.attempt : Paused σ ε' (Except ε α)).KeepsTo rel start := by
    intro p
    induction p with
    | ended s r => exact fun h => h
    | waiting s w resume ih => exact fun h => ⟨h.1, fun s' hs' => ih s' (h.2 s' hs')⟩
  exact fun s => hpaused (hp s)

/-- A program on a part of a state keeps to a relation on the whole when what it does to the part
does. -/
theorem KeepsTo.within {inner : τ → τ → Prop} {part : σ → τ} {replace : τ → σ → σ}
    {p : Program τ ε α} (hp : p.KeepsTo inner)
    (hreplace : ∀ s t, inner (part s) t → rel s (replace t s)) :
    (p.within part replace).KeepsTo rel := by
  have hpaused : ∀ {p : Paused τ ε α} {whole : σ}, p.KeepsTo inner (part whole) →
      (p.within part replace whole).KeepsTo rel whole := by
    intro p
    induction p with
    | ended t r => exact fun h => hreplace _ t h
    | waiting t w resume ih =>
      exact fun h => ⟨hreplace _ t h.1, fun s' _ => ih (part s') (h.2 (part s') trivial)⟩
  exact fun s => hpaused (hp (part s))

end Program

end RunParams
