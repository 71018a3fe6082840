import RunParams.Action
import RunParams.Program

/-!
# Two runs of a program

A program is run twice, from states that a relation `R` calls alike. The runs are alike
(`Paused.Alike`) if they stop at the same waits, go on alike from whatever alike states they then
find, and end with the same error or with values that a relation `V` calls alike. A program is alike
to another if its runs are, from all alike states (`Program.Alike`).

The relation is closed under everything that programs are built from (`Program.Alike.bind`,
`Program.Alike.attempt`, `Program.Alike.within`, `Program.Alike.beside`), so a program is shown to
be alike to itself piece by piece, without a look at where it may stop. `Paused.Alike.alone` is what
comes of it for a program on its own.
-/

namespace RunParams

/-- Two results are the same error, or values that are alike. -/
inductive ResultAlike {ε α : Type} (V : α → α → Prop) : Except ε α → Except ε α → Prop
  | ok {a b : α} (value : V a b) : ResultAlike V (.ok a) (.ok b)
  | error {e : ε} : ResultAlike V (.error e) (.error e)

/-- Results are alike in the strictest sense if and only if they are equal. -/
theorem resultAlike_eq {ε α : Type} {r r' : Except ε α} : ResultAlike Eq r r' ↔ r = r' := by
  constructor
  · rintro (⟨rfl⟩ | _) <;> rfl
  · rintro rfl
    cases r with
    | ok a => exact .ok rfl
    | error e => exact .error

namespace Paused

variable {σ τ δ ε ε' α β : Type} {R : σ → σ → Prop} {V : α → α → Prop} {W : β → β → Prop}

/-- Two runs that stop at the same waits and end alike, if only what they find is alike. -/
inductive Alike (R : σ → σ → Prop) (V : α → α → Prop) : Paused σ ε α → Paused σ ε α → Prop
  | ended {s s' : σ} {r r' : Except ε α} (state : R s s') (result : ResultAlike V r r') :
    Alike R V (.ended s r) (.ended s' r')
  | waiting {s s' : σ} {w : Wait} {resume resume' : σ → Paused σ ε α} (state : R s s')
    (next : ∀ t t', R t t' → Alike R V (resume t) (resume' t')) :
    Alike R V (.waiting s w resume) (.waiting s' w resume')

/-- Going on alike from alike values. -/
theorem Alike.bind {p p' : Paused σ ε α} {next next' : α → σ → Paused σ ε β} (h : p.Alike R V p')
    (hn : ∀ a a' s s', V a a' → R s s' → (next a s).Alike R W (next' a' s')) :
    (p.bind next).Alike R W (p'.bind next') := by
  induction h with
  | ended state result =>
    -- Both have a value to go on with, or both have failed.
    cases result with
    | ok value => exact hn _ _ _ _ value state
    | error => exact .ended state .error
  | waiting state _ ih => exact .waiting state ih

/-- The outcomes of alike runs are alike values. -/
theorem Alike.attempt {p p' : Paused σ ε α} (h : p.Alike R V p') :
    (p.attempt : Paused σ ε' (Except ε α)).Alike R (ResultAlike V) p'.attempt := by
  induction h with
  | ended state result => exact .ended state (.ok result)
  | waiting state _ ih => exact .waiting state ih

/-- Alike runs on parts of alike states, if a part and the replacing of it respect the relations. -/
theorem Alike.within {Q : τ → τ → Prop} {part : τ → σ} {replace : σ → τ → τ}
    (hpart : ∀ t t', Q t t' → R (part t) (part t'))
    (hreplace : ∀ s s' t t', R s s' → Q t t' → Q (replace s t) (replace s' t'))
    {p p' : Paused σ ε α} (h : p.Alike R V p') {t t' : τ} (ht : Q t t') :
    (p.within part replace t).Alike Q V (p'.within part replace t') := by
  induction h generalizing t t' with
  | ended state result => exact .ended (hreplace _ _ _ _ state ht) result
  | waiting state _ ih =>
    refine .waiting (hreplace _ _ _ _ state ht) fun u u' hu => ?_
    exact ih _ _ (hpart u u' hu) hu

/-- Alike runs beside states that they share, if the parts of the state respect the relations. -/
theorem Alike.beside {D : δ → δ → Prop} {T : τ → τ → Prop} {join : τ → σ → δ} {own : δ → τ}
    {replace : δ → σ → σ} (hjoin : ∀ t t' s s', T t t' → R s s' → D (join t s) (join t' s'))
    (hown : ∀ d d', D d d' → T (own d) (own d'))
    (hreplace : ∀ d d' s s', D d d' → R s s' → R (replace d s) (replace d' s'))
    {p p' : Paused δ ε α} (h : p.Alike D V p') {s s' : σ} (hs : R s s') :
    (p.beside join own replace s).Alike R (fun a b => T a.1 b.1 ∧ V a.2 b.2)
      (p'.beside join own replace s') := by
  induction h generalizing s s' with
  | ended state result =>
    refine .ended (hreplace _ _ _ _ state hs) ?_
    cases result with
    | ok value => exact .ok ⟨hown _ _ state, value⟩
    | error => exact .error
  | waiting state _ ih =>
    -- What is its own is carried over the wait, what is shared is what it then finds.
    refine .waiting (hreplace _ _ _ _ state hs) fun u u' hu => ?_
    have hfound := hjoin _ _ _ _ (hown _ _ state) hu
    exact ih _ _ hfound hu

/-- Alike runs on their own end alike, if passing a wait respects the relation. -/
theorem Alike.alone {pass : Wait → σ → σ} (hpass : ∀ w s s', R s s' → R (pass w s) (pass w s'))
    {p p' : Paused σ ε α} (h : p.Alike R V p') :
    ResultAlike V (p.alone pass).1 (p'.alone pass).1 ∧
      R (p.alone pass).2 (p'.alone pass).2 := by
  induction h with
  | ended state result => exact ⟨result, state⟩
  | waiting state _ ih => exact ih _ _ (hpass _ _ _ state)

/-- A run is alike to itself if equal states are what counts as alike. -/
theorem alike_refl (p : Paused σ ε α) : p.Alike Eq Eq p := by
  induction p with
  | ended s r => exact .ended rfl (resultAlike_eq.mpr rfl)
  | waiting s w resume ih =>
    refine .waiting rfl ?_
    rintro t _ rfl
    exact ih t

end Paused

namespace Program

variable {σ τ δ ε ε' α β : Type} {R : σ → σ → Prop} {V : α → α → Prop} {W : β → β → Prop}

/-- Two programs whose runs from alike states are alike. -/
def Alike (R : σ → σ → Prop) (V : α → α → Prop) (p p' : Program σ ε α) : Prop :=
  ∀ s s', R s s' → (p s).Alike R V (p' s')

theorem Alike.pure {a a' : α} (h : V a a') :
    Alike R V (Pure.pure a : Program σ ε α) (Pure.pure a') :=
  fun _ _ hs => .ended hs (.ok h)

theorem Alike.bind {p p' : Program σ ε α} {next next' : α → Program σ ε β} (h : Alike R V p p')
    (hn : ∀ a a', V a a' → Alike R W (next a) (next' a')) :
    Alike R W (p >>= next) (p' >>= next') :=
  fun s s' hs => (h s s' hs).bind fun a a' s s' ha hs => hn a a' ha s s' hs

/-- Going on after a program whose value is of no interest. -/
theorem Alike.andThen {p p' : Program σ ε Unit} {next next' : Program σ ε β}
    (h : Alike R Eq p p') (hn : Alike R W next next') :
    Alike R W (p >>= fun _ => next) (p' >>= fun _ => next') :=
  h.bind fun _ _ _ => hn

theorem Alike.get : Alike R R (Program.get : Program σ ε σ) .get :=
  fun _ _ hs => .ended hs (.ok hs)

theorem Alike.modify {f f' : σ → σ} (h : ∀ s s', R s s' → R (f s) (f' s')) :
    Alike R Eq (Program.modify f : Program σ ε Unit) (.modify f') :=
  fun s s' hs => .ended (h s s' hs) (.ok rfl)

theorem Alike.fail {e : ε} : Alike R V (Program.fail e : Program σ ε α) (.fail e) :=
  fun _ _ hs => .ended hs .error

theorem Alike.ofExcept {r r' : Except ε α} (h : ResultAlike V r r') :
    Alike R V (Program.ofExcept r : Program σ ε α) (.ofExcept r') :=
  fun _ _ hs => .ended hs h

theorem Alike.waitFor {w : Wait} :
    Alike R Eq (Program.waitFor w : Program σ ε Unit) (.waitFor w) :=
  fun _ _ hs => .waiting hs fun _ _ ht => .ended ht (.ok rfl)

theorem Alike.attempt {p p' : Program σ ε α} (h : Alike R V p p') :
    Alike R (ResultAlike V) (p.attempt : Program σ ε' (Except ε α)) p'.attempt :=
  fun s s' hs => (h s s' hs).attempt

theorem Alike.within {Q : τ → τ → Prop} {part : τ → σ} {replace : σ → τ → τ}
    (hpart : ∀ t t', Q t t' → R (part t) (part t'))
    (hreplace : ∀ s s' t t', R s s' → Q t t' → Q (replace s t) (replace s' t'))
    {p p' : Program σ ε α} (h : Alike R V p p') :
    Alike Q V (p.within part replace) (p'.within part replace) :=
  fun t t' ht => (h _ _ (hpart t t' ht)).within hpart hreplace ht

theorem Alike.beside {D : δ → δ → Prop} {T : τ → τ → Prop} {join : τ → σ → δ} {own : δ → τ}
    {replace : δ → σ → σ} (hjoin : ∀ t t' s s', T t t' → R s s' → D (join t s) (join t' s'))
    (hown : ∀ d d', D d d' → T (own d) (own d'))
    (hreplace : ∀ d d' s s', D d d' → R s s' → R (replace d s) (replace d' s'))
    {p p' : Program δ ε α} (h : Alike D V p p') {start start' : τ} (hstart : T start start') :
    Alike R (fun a b => T a.1 b.1 ∧ V a.2 b.2) (p.beside join own replace start)
      (p'.beside join own replace start') :=
  fun s s' hs => (h _ _ (hjoin _ _ s s' hstart hs)).beside hjoin hown hreplace hs

end Program

namespace Action

variable {σ τ α β : Type} {R : σ → σ → Prop} {V : α → α → Prop} {W : β → β → Prop}

/-- Two actions that, from alike states, end alike, report the same events and leave alike states.
-/
def Alike (R : σ → σ → Prop) (V : α → α → Prop) (f f' : Action σ α) : Prop :=
  ∀ s s', R s s' →
    ResultAlike V (f s).result (f' s').result ∧ (f s).events = (f' s').events ∧
      R (f s).state (f' s').state

theorem Alike.get : Alike R R (Action.get : Action σ σ) .get :=
  fun _ _ hs => ⟨.ok hs, rfl, hs⟩

theorem Alike.report (event : Event) :
    Alike R Eq (Action.report event : Action σ Unit) (.report event) :=
  fun _ _ hs => ⟨.ok rfl, rfl, hs⟩

theorem Alike.bind {f f' : Action σ α} {next next' : α → Action σ β} (h : Alike R V f f')
    (hn : ∀ a a', V a a' → Alike R W (next a) (next' a')) :
    Alike R W (f >>= next) (f' >>= next') := by
  intro s s' hs
  obtain ⟨hresult, hevents, hstate⟩ := h s s' hs
  rcases hf : f s with ⟨result, state, events⟩
  rcases hf' : f' s' with ⟨result', state', events'⟩
  rw [hf, hf'] at hresult hevents hstate
  dsimp only at hresult hevents hstate
  cases hresult with
  | ok value =>
    -- The events of the first are followed by those of the second, on both sides.
    obtain ⟨hresult₂, hevents₂, hstate₂⟩ := hn _ _ value _ _ hstate
    rw [Action.bind_ok hf, Action.bind_ok hf', hevents, hevents₂]
    exact ⟨hresult₂, rfl, hstate₂⟩
  | error =>
    rw [Action.bind_error hf, Action.bind_error hf']
    exact ⟨.error, hevents, hstate⟩

/-- An action on a part that alike states have in common. -/
theorem Alike.within {part : τ → σ} {replace : σ → τ → τ} {Q : τ → τ → Prop}
    (hpart : ∀ t t', Q t t' → part t = part t')
    (hreplace : ∀ s t t', Q t t' → Q (replace s t) (replace s t')) (f : Action σ α) :
    Alike Q Eq (f.within part replace) (f.within part replace) := by
  intro t t' ht
  simp only [Action.within, hpart t t' ht]
  exact ⟨resultAlike_eq.mpr rfl, trivial, hreplace _ _ _ ht⟩

end Action

end RunParams
