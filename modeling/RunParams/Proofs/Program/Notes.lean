import RunParams.Proofs.Program.Endings

/-!
# Programs that take notes

To say what a program did and in which order, it is made to take notes. Notes are its own: nobody
else sees or changes them, and the program itself only ever adds to them, so a program with notes
that are forgotten is the program without (`Program.Forgets`). `Program.unnoted` and
`Program.noted` are the parts out of which such a program is made.

`Paused.Tells` says what the notes are at each wait and in the end, whatever state the others leave.
-/

namespace RunParams

variable {σ ν ε ε' α β : Type}

namespace Paused

/-- A program that takes notes, without its notes. -/
def forget : Paused (σ × List ν) ε α → Paused σ ε α
  | ended d r => ended d.1 r
  | waiting d w resume => waiting d.1 w fun s => forget (resume (s, d.2))

/-- The notes of a program are as `always` says where it waits, and as `last` says in the end. -/
def Tells (always : List ν → Prop) (last : List ν → Except ε α → Prop) :
    Paused (σ × List ν) ε α → Prop
  | ended d r => last d.2 r
  | waiting d _ resume => always d.2 ∧ ∀ s, Tells always last (resume (s, d.2))

/-- Others leave the notes alone. -/
def Aside (d d' : σ × List ν) : Prop := d'.2 = d.2

variable {always always' : List ν → Prop} {last last' : List ν → Except ε α → Prop}
  {p : Paused (σ × List ν) ε α} {d : σ × List ν} {r : Except ε α}

/-- The notes at the end of a program. -/
theorem Tells.of_canEnd (h : p.Tells always last) (hend : p.CanEnd Aside d r) : last d.2 r := by
  induction hend with
  | ended d r => exact h
  | @waiting d d' _ _ resume _ found _ ih =>
    have hresume : (resume (d'.1, d.2)).Tells always last := h.2 d'.1
    rw [← show d'.2 = d.2 from found] at hresume
    exact ih hresume

/-- The notes at any moment of a program. -/
theorem Tells.of_canStop (h : p.Tells always last) (hlast : ∀ notes r, last notes r → always notes)
    (hstop : p.CanStop Aside d) : always d.2 := by
  induction hstop with
  | here p =>
    cases p with
    | ended d r => exact hlast d.2 r h
    | waiting d w resume => exact h.1
  | @later d d' _ _ resume found _ ih =>
    have hresume : (resume (d'.1, d.2)).Tells always last := h.2 d'.1
    rw [← show d'.2 = d.2 from found] at hresume
    exact ih hresume

/-- Of notes that tell something, less is told, too. -/
theorem Tells.mono (h : p.Tells always last) (halways : ∀ notes, always notes → always' notes)
    (hlast : ∀ notes r, last notes r → last' notes r) : p.Tells always' last' := by
  induction p with
  | ended d r => exact hlast d.2 r h
  | waiting d w resume ih => exact ⟨halways d.2 h.1, fun s => ih _ (h.2 s)⟩

/-- A program that goes on with the value of another goes on with its notes. -/
theorem Tells.bind {mid : List ν → Except ε β → Prop} {p : Paused (σ × List ν) ε β}
    {next : β → σ × List ν → Paused (σ × List ν) ε α} (h : p.Tells always mid)
    (hok : ∀ b d, mid d.2 (.ok b) → (next b d).Tells always last)
    (herror : ∀ notes e, mid notes (.error e) → last notes (.error e)) :
    (p.bind next).Tells always last := by
  induction p with
  | ended d r =>
    cases r with
    | ok b => exact hok b d h
    | error e => exact herror d.2 e h
  | waiting d w resume ih => exact ⟨h.1, fun s => ih _ (h.2 s)⟩

/-- A program whose error is made a value takes the same notes. -/
theorem Tells.attempt (h : p.Tells always last) :
    (p.attempt : Paused (σ × List ν) ε' (Except ε α)).Tells always
      fun notes result => ∃ r, result = .ok r ∧ last notes r := by
  induction p with
  | ended d r => exact ⟨r, rfl, h⟩
  | waiting d w resume ih => exact ⟨h.1, fun s => ih _ (h.2 s)⟩

end Paused

namespace Program

variable {p : Program (σ × List ν) ε α} {q : Program σ ε α}

/-- A program that takes notes is another one when the notes are forgotten. -/
def Forgets (p : Program (σ × List ν) ε α) (q : Program σ ε α) : Prop :=
  ∀ d, (p d).forget = q d.1

/-- A program without notes, as part of one that takes notes. -/
def unnoted (q : Program σ ε α) : Program (σ × List ν) ε α :=
  q.within Prod.fst fun s d => (s, d.2)

/-- Takes notes. -/
def note (notes : List ν) : Program (σ × List ν) ε Unit :=
  .modify fun d => (d.1, d.2 ++ notes)

/-- A program of which it is noted what it comes to. -/
def noted (notes : Except ε α → List ν) (q : Program σ ε α) : Program (σ × List ν) ε α := do
  let r ← q.unnoted.attempt
  note (notes r)
  .ofExcept r

/-- What ends at once is noted at once. -/
theorem noted_of_ended {notes : Except ε α → List ν} {d : σ × List ν} {s : σ} {r : Except ε α}
    (h : q d.1 = .ended s r) : q.noted notes d = .ended (s, d.2 ++ notes r) r := by
  show (((q d.1).within _ _ d).attempt.bind _ : Paused (σ × List ν) ε α) = _
  rw [h]
  rfl

/-- A program that goes on like another one does so, too, when both are noted. -/
theorem noted_congr {notes : Except ε α → List ν} {q' : Program σ ε α} {s s' : σ}
    {earlier : List ν} (h : q s = q' s') :
    q.noted notes (s, earlier) = q'.noted notes (s', earlier) := by
  show (((q s).within _ _ _).attempt.bind _ : Paused (σ × List ν) ε α) =
    ((q' s').within _ _ _).attempt.bind _
  rw [h]
  cases q' s' with
  | ended t r => rfl
  | waiting t w resume => rfl

/-- The state is there with the notes, too. -/
theorem forgets_get_bind {next : σ × List ν → Program (σ × List ν) ε α}
    {next' : σ → Program σ ε α} (h : ∀ d, (next d).Forgets (next' d.1)) :
    (get >>= next).Forgets (get >>= next') := fun d => h d d

/-- What is at hand is so without notes. -/
theorem forgets_ofExcept (r : Except ε α) :
    (ofExcept r : Program (σ × List ν) ε α).Forgets (ofExcept r) := fun _ => rfl

/-- Parts of a program that forget their notes make up a whole that does. -/
theorem Forgets.bind {next : α → Program (σ × List ν) ε β} {next' : α → Program σ ε β}
    (hp : p.Forgets q) (hnext : ∀ a, (next a).Forgets (next' a)) :
    (p >>= next).Forgets (q >>= next') := by
  have hpaused : ∀ p : Paused (σ × List ν) ε α, (p.bind next).forget = p.forget.bind next' := by
    intro p
    -- Where the first part ends, the second one starts with the notes taken so far.
    induction p with
    | ended d r =>
      cases r with
      | ok a => exact hnext a d
      | error e => rfl
    | waiting d w resume ih => exact congrArg (Paused.waiting d.1 w) (funext fun s => ih _)
  intro d
  show ((p d).bind next).forget = (q d.1).bind next'
  rw [hpaused, hp d]

/-- Taking notes is nothing else. -/
theorem Forgets.note_bind (hp : p.Forgets q) (notes : List ν) :
    (note notes >>= fun _ => p).Forgets q := fun d => hp (d.1, d.2 ++ notes)

/-- A program whose error is made a value still forgets its notes. -/
theorem Forgets.attempt (hp : p.Forgets q) :
    (p.attempt : Program (σ × List ν) ε' (Except ε α)).Forgets q.attempt := by
  have hpaused : ∀ p : Paused (σ × List ν) ε α,
      (p.attempt : Paused (σ × List ν) ε' (Except ε α)).forget = p.forget.attempt := by
    intro p
    induction p with
    | ended d r => rfl
    | waiting d w resume ih => exact congrArg (Paused.waiting d.1 w) (funext fun s => ih _)
  intro d
  show ((p d).attempt : Paused (σ × List ν) ε' (Except ε α)).forget = (q d.1).attempt
  rw [hpaused, hp d]

/-- Without notes there is nothing to forget. -/
theorem forgets_unnoted (q : Program σ ε α) : (q.unnoted : Program (σ × List ν) ε α).Forgets q := by
  have hpaused : ∀ (q : Paused σ ε α) (d : σ × List ν),
      (q.within Prod.fst (fun s (d : σ × List ν) => (s, d.2)) d).forget = q := by
    intro q
    induction q with
    | ended s r => exact fun d => rfl
    | waiting s w resume ih =>
      exact fun d => congrArg (Paused.waiting s w) (funext fun s' => ih s' _)
  exact fun d => hpaused (q d.1) d

/-- Once its notes are forgotten, a program is what it was before they were taken. -/
theorem forgets_noted (notes : Except ε α → List ν) (q : Program σ ε α) :
    (q.noted notes).Forgets q := by
  have hparts : (q.noted notes).Forgets (q.attempt >>= fun r => pure () >>= fun _ => .ofExcept r) :=
    (forgets_unnoted q).attempt.bind fun r =>
      Forgets.bind (q := pure ()) (fun _ => rfl) fun _ => forgets_ofExcept r
  intro d
  rw [hparts d]
  exact (q d.1).attempt_bind_ended

/-- A program without notes takes none. -/
theorem tells_unnoted (q : Program σ ε α) (d : σ × List ν) :
    ((q.unnoted : Program (σ × List ν) ε α) d).Tells (fun notes => notes = d.2)
      fun notes _ => notes = d.2 := by
  have hpaused : ∀ (q : Paused σ ε α) (d d' : σ × List ν), d'.2 = d.2 →
      (q.within Prod.fst (fun s (d : σ × List ν) => (s, d.2)) d').Tells
        (fun notes => notes = d.2) fun notes _ => notes = d.2 := by
    intro q
    induction q with
    | ended s r => exact fun d d' h => h
    | waiting s w resume ih => exact fun d d' h => ⟨h, fun s' => ih s' d _ h⟩
  exact hpaused (q d.1) d d rfl

/-- A program goes on with the notes that it has just taken. -/
theorem tells_note_bind {always : List ν → Prop} {last : List ν → Except ε α → Prop}
    {notes : List ν} {d : σ × List ν} (h : (p (d.1, d.2 ++ notes)).Tells always last) :
    ((note notes >>= fun _ => p) d).Tells always last := h

/-- What a program has noted in the end is what it has come to. -/
theorem tells_noted (notes : Except ε α → List ν) (q : Program σ ε α) (d : σ × List ν) :
    (q.noted notes d).Tells (fun written => written = d.2)
      fun written r => written = d.2 ++ notes r := by
  refine (tells_unnoted q d).attempt.bind ?_ ?_
  · rintro r d' ⟨r', hr, hsame⟩
    cases hr
    show d'.2 ++ notes r = d.2 ++ notes r
    rw [hsame]
  · rintro written e ⟨r, hr, -⟩
    cases hr

end Program

end RunParams
