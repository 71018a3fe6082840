import RunParams.Proofs.Run.Orderly
import RunParams.Proofs.Scheduler.Runs

/-!
# Who has opened which context

A live context is found under the id of a run. The table does not tell who has opened it: with one
id several tasks and calls may have to do in the course of time. A `Ledger` is a machine together
with an account of all contexts that were opened so far, the latest first, each with the task or the
call in whose turn it became live.

As long as everybody's work is orderly (`Program.Orderly`), which is so for runs, for sweeps and for
requests to the registry, the account is right (`Ledger.Right`): every context is in it no more than
once, and what is live under an id is what was opened last under it.
-/

namespace RunParams

/-- Who works on the world. -/
inductive Party where
  | task (number : Nat)
  | call (number : Nat)
  deriving DecidableEq

/-- A context with a number was made live under an id. -/
structure Opening where
  party : Party
  run : String
  number : Nat
  deriving DecidableEq

/-- The entries of a world whose contexts were not there in another one. -/
def World.gained (w w' : World) : KeyMap Entry :=
  w'.live.filter fun _ entry => decide (w.contexts.length ≤ entry.context)

/-- The openings by a party, according to the entries that it has made. -/
def openingsBy (party : Party) (entries : KeyMap Entry) : List Opening :=
  entries.entries.map fun e => ⟨party, e.1, e.2.context⟩

/-- Who was the last to open a context under an id. -/
def lastOpener (opened : List Opening) (run : String) : Option Party :=
  (opened.find? fun o => o.run = run).map Opening.party

/-- Who makes a move. A move that begins a call is made by that call. -/
def Machine.mover (m : Machine) : Move → Party
  | .task number => .task number
  | .call number => .call number
  | _ => .call m.calls.length

/-- A machine and the contexts that were opened so far, the latest first. -/
structure Ledger where
  machine : Machine
  opened : List Opening

namespace Ledger

/-- At the beginning. -/
def start (settings : RunnerSettings) (world : World) : Ledger := ⟨.ofWorld settings world, []⟩

/-- A move, with the contexts that are opened by it. -/
def move (executor : Executor) (l : Ledger) (m : Move) : Ledger :=
  let next := l.machine.step executor m
  ⟨next, openingsBy (l.machine.mover m) (l.machine.system.world.gained next.system.world) ++
    l.opened⟩

/-- Some moves. -/
def run (executor : Executor) (l : Ledger) (moves : List Move) : Ledger :=
  moves.foldl (move executor) l

/-- A machine that had neither runs nor calls, after some moves, with the account of them. -/
def after (executor : Executor) (settings : RunnerSettings) (world : World) (moves : List Move) :
    Ledger :=
  (start settings world).run executor moves

variable {executor : Executor} {settings : RunnerSettings} {world : World} {moves : List Move}

/-- Further moves are made after the others. -/
theorem after_append (executor : Executor) (settings : RunnerSettings) (world : World)
    (before later : List Move) :
    after executor settings world (before ++ later) =
      (after executor settings world before).run executor later :=
  List.foldl_append

/-- The account does not interfere with the machine. -/
@[simp] theorem machine_after (executor : Executor) (settings : RunnerSettings) (world : World)
    (moves : List Move) :
    (after executor settings world moves).machine =
      Machine.after executor settings world moves := by
  have hrun : ∀ (moves : List Move) (l : Ledger),
      (l.run executor moves).machine = l.machine.run executor moves := by
    intro moves
    induction moves with
    | nil => exact fun l => rfl
    | cons move rest ih => exact fun l => ih (l.move executor move)
  exact hrun moves (start settings world)

end Ledger

/-! ## Finding openings -/

variable {w w' : World} {party : Party} {run : String} {entry : Entry} {o : Opening}

/-- What is found under a key is the first entry with it. -/
theorem Entries.find_eq_find? {α : Type} (key : String) (entries : List (String × α)) :
    find key entries = (entries.find? fun e => e.1 = key).map (·.2) := by
  induction entries with
  | nil => rfl
  | cons e rest ih =>
    rw [find_cons, List.find?_cons]
    by_cases hkey : e.1 = key
    · rw [if_pos hkey, decide_eq_true hkey]
      rfl
    · rw [if_neg hkey, decide_eq_false hkey]
      exact ih

/-- The opening under an id that a party has made is that of the entry under it. -/
theorem find?_openingsBy (party : Party) (entries : KeyMap Entry) (run : String) :
    (openingsBy party entries).find? (fun o => o.run = run) =
      (entries.get? run).map fun entry => ⟨party, run, entry.context⟩ := by
  unfold openingsBy KeyMap.get?
  rw [List.find?_map, Entries.find_eq_find?, Option.map_map]
  -- With an entry for the run the first opening under its id is the one of this entry.
  cases hfound : entries.entries.find? fun e => e.1 = run with
  | none => exact congrArg _ hfound
  | some e =>
    have hkey : e.1 = run := by simpa using List.find?_some hfound
    have hsame : entries.entries.find? ((fun o : Opening => decide (o.run = run)) ∘
        fun e => ⟨party, e.1, e.2.context⟩) = some e := hfound
    rw [hsame, ← hkey]
    rfl

/-- What a party has opened is what its entries say. -/
theorem mem_openingsBy {entries : KeyMap Entry} : o ∈ openingsBy party entries ↔
    o.party = party ∧ ∃ entry, entries.get? o.run = some entry ∧ o.number = entry.context := by
  constructor
  · intro ho
    obtain ⟨e, he, rfl⟩ := List.mem_map.mp ho
    exact ⟨rfl, e.2, entries.sorted.find_of_mem he, rfl⟩
  · rintro ⟨rfl, entry, hentry, hnumber⟩
    refine List.mem_map.mpr ⟨(o.run, entry), Entries.mem_of_find hentry, ?_⟩
    rw [← hnumber]

/-- What a world has gained is what is live with a new number. -/
theorem World.get?_gained : (w.gained w').get? run = some entry ↔
    w'.live.get? run = some entry ∧ w.contexts.length ≤ entry.context := by
  unfold gained
  rw [KeyMap.get?_filter, Option.filter_eq_some_iff, decide_eq_true_iff]

/-- Nothing is gained where nothing is made live. -/
theorem World.Filed.not_gained (h : w.Filed) (hlive : w'.live.get? run = w.live.get? run) :
    (w.gained w').get? run = none := by
  cases hgained : (w.gained w').get? run with
  | none => rfl
  | some entry =>
    obtain ⟨hentry, hnew⟩ := World.get?_gained.mp hgained
    have hused := h.used run entry (hlive ▸ hentry)
    omega

/-! ## The account -/

/-- The account of the openings tells whose the live contexts are. -/
structure Accounted (w : World) (opened : List Opening) : Prop where
  used : ∀ o ∈ opened, o.number < w.contexts.length
  /-- No context is opened twice. -/
  unique : ∀ o ∈ opened, ∀ o' ∈ opened, o.number = o'.number → o = o'
  /-- What is live was opened last under its id. -/
  last : ∀ run entry, w.live.get? run = some entry →
    ∃ party, opened.find? (fun o => o.run = run) = some ⟨party, run, entry.context⟩

variable {opened : List Opening}

namespace Accounted

/-- What is accounted for is filed. -/
theorem filed (h : Accounted w opened) : w.Filed := by
  refine ⟨fun run entry hentry => ?_, fun run run' entry entry' hentry hentry' hsame => ?_⟩
  · obtain ⟨party, hlast⟩ := h.last run entry hentry
    exact h.used _ (List.mem_of_find?_eq_some hlast)
  · obtain ⟨party, hlast⟩ := h.last run entry hentry
    obtain ⟨party', hlast'⟩ := h.last run' entry' hentry'
    exact congrArg Opening.run (h.unique _ (List.mem_of_find?_eq_some hlast) _
      (List.mem_of_find?_eq_some hlast') hsame)

/-- Who has opened the live context of an id is who opened one last under it. -/
theorem mem_iff (h : Accounted w opened) (hentry : w.live.get? run = some entry) (party : Party) :
    ⟨party, run, entry.context⟩ ∈ opened ↔ lastOpener opened run = some party := by
  obtain ⟨opener, hlast⟩ := h.last run entry hentry
  have hmem := List.mem_of_find?_eq_some hlast
  unfold lastOpener
  rw [hlast]
  -- Two openings of one context are the same opening, so its opener is the one named last.
  constructor
  · intro hparty
    have hsame := h.unique _ hmem _ hparty rfl
    exact congrArg (some ∘ Opening.party) hsame
  · intro hparty
    cases hparty
    exact hmem

/-- Orderly work, with what is gained by it, is accounted for. -/
theorem orderly (h : Accounted w opened) (hwork : w.Orderly w') (party : Party) :
    Accounted w' (openingsBy party (w.gained w') ++ opened) := by
  have hfiled := hwork.filed h.filed
  -- What is gained in this stretch is live after it and has a number that was not used before.
  have hnew : ∀ o ∈ openingsBy party (w.gained w'), o.party = party ∧
      ∃ entry, w'.live.get? o.run = some entry ∧ o.number = entry.context ∧
        w.contexts.length ≤ o.number := by
    intro o ho
    obtain ⟨hparty, entry, hentry, hnumber⟩ := mem_openingsBy.mp ho
    obtain ⟨hlive, hless⟩ := World.get?_gained.mp hentry
    exact ⟨hparty, entry, hlive, hnumber, hnumber ▸ hless⟩
  -- In turn: numbers are in use, no context was opened twice, and the last opening of a live
  -- context is the one that made it live.
  refine ⟨fun o ho => ?_, fun o ho o' ho' hsame => ?_, fun run entry hentry => ?_⟩
  · rcases List.mem_append.mp ho with ho | ho
    · obtain ⟨-, entry, hentry, hnumber, -⟩ := hnew o ho
      rw [hnumber]
      exact hfiled.used o.run entry hentry
    · exact Nat.lt_of_lt_of_le (h.used o ho) hwork.contexts
  · -- Either opening may be of this stretch or of an earlier one. Only two of the same age can be
    -- of one context, since new contexts have new numbers.
    rcases List.mem_append.mp ho with ho | ho <;> rcases List.mem_append.mp ho' with ho' | ho'
    · obtain ⟨hparty, entry, hentry, hnumber, -⟩ := hnew o ho
      obtain ⟨hparty', entry', hentry', hnumber', -⟩ := hnew o' ho'
      have hrun : o.run = o'.run := hfiled.distinct o.run o'.run entry entry' hentry hentry'
        (hnumber ▸ hnumber' ▸ hsame)
      cases o
      cases o'
      simp only at hparty hparty' hrun hsame
      rw [hparty, hparty', hrun, hsame]
    · obtain ⟨-, -, -, -, hless⟩ := hnew o ho
      have hused := h.used o' ho'
      omega
    · obtain ⟨-, -, -, -, hless⟩ := hnew o' ho'
      have hused := h.used o ho
      omega
    · exact h.unique o ho o' ho' hsame
  · -- The openings of this stretch come first, so they decide whenever there is one for the run.
    rw [List.find?_append, find?_openingsBy]
    by_cases hless : w.contexts.length ≤ entry.context
    · rw [World.get?_gained.mpr ⟨hentry, hless⟩]
      exact ⟨party, rfl⟩
    · -- The entry was there before, so nothing was gained under its id.
      have hbefore : w.live.get? run = some entry :=
        (hwork.live run entry hentry).resolve_right hless
      rw [h.filed.not_gained (hentry.trans hbefore.symm)]
      exact h.last run entry hbefore

end Accounted

/-! ## Orderly machines -/

namespace Machine

variable {executor : Executor} {m m' : Machine} {move : Move} {d : Option Deed} {number : Nat}

/-- A call that does other work after a turn has not moved, or has gone on to its next wait, or has
just begun. If the turn was its own and it has not moved, nothing was done at all. -/
theorem Turn.working (hturn : Turn executor m move d m') {wait' : Wait}
    {resume' : World → Paused World BindingError Unit}
    (hfound : m'.calls[number]? = some (.working wait' resume')) :
    (m.calls[number]? = some (.working wait' resume') ∧
        (move = .call number → m.system.world.Untouched m'.system.world)) ∨
      (∃ wait resume, move = .call number ∧ m.calls[number]? = some (.working wait resume) ∧
        resume m.system.world = .waiting m'.system.world wait' resume') ∨
      ∃ program, move = .work program ∧ number = m.calls.length ∧
        program m.system.world = .waiting m'.system.world wait' resume' := by
  -- If another call goes on, this one is as it was and its own turn is not the one that is taken.
  have hother : ∀ {other : Nat}, number ≠ other →
      m.calls[number]? = some (.working wait' resume') → m.calls[number]? =
        some (.working wait' resume') ∧
        (Move.call other = .call number → m.system.world.Untouched m'.system.world) := by
    intro other hne hfound
    exact ⟨hfound, fun hmove => absurd (Move.call.inj hmove).symm hne⟩
  -- What a call of the scheduler becomes is never other work, so only the turn of this very call
  -- could have changed it.
  have hgoOn : ∀ {other : Nat} {old state : CallState} (system : System),
      m.calls[other]? = some old → state.works = false →
      (m.goOn other state system).calls[number]? = some (.working wait' resume') →
      m.calls[number]? = some (.working wait' resume') ∧
        (Move.call other = .call number → m.system.world.Untouched m'.system.world) := by
    intro other old state system there hstate hfound
    rcases call_of_goOn there hfound with ⟨-, rfl⟩ | ⟨hne, hfound⟩
    · cases hstate
    · exact hother hne hfound
  -- Work that waits on is what is left of it at this wait.
  have hofPaused : ∀ {p : Paused World BindingError Unit},
      CallState.working wait' resume' = .ofPaused p → p = .waiting p.state wait' resume' := by
    intro p hp
    cases p with
    | ended _ _ => cases hp
    | waiting _ _ _ =>
      cases hp
      rfl
  -- Work in progress after a turn was in progress before, has done a stretch, or has just begun.
  cases hturn with
  | still _ same => exact .inl ⟨hfound, fun _ => same⟩
  | raised _ _ | ran _ _ _ | finished _ _ _ | stored _ _ | unflagged _ _ | left _ _ _
  | pruned _ _ => exact .inl ⟨hfound, nofun⟩
  | called same state new kind =>
    rcases call_of_addCall hfound with ⟨-, rfl⟩ | ⟨-, hfound⟩
    · -- The call that is called shuts down, sweeps or starts a run; none of these is other work.
      rcases new with hnew | hnew | ⟨input, hnew⟩ <;> cases hnew
    · exact .inl ⟨hfound, fun _ => same⟩
  | began program =>
    rcases call_of_addCall hfound with ⟨hnumber, hstate⟩ | ⟨-, hfound⟩
    · exact .inr (.inr ⟨program, rfl, hnumber, hofPaused hstate⟩)
    · exact .inl ⟨hfound, nofun⟩
  | awaited run =>
    rcases call_of_addCall hfound with ⟨-, hstate⟩ | ⟨-, hfound⟩
    · cases hstate
    · exact .inl ⟨hfound, nofun⟩
  | refused there | slept there _ | noticed there _ | woken there | collected there
  | aborted there _ | joined there | discarded there | stripped there | closed there
  | read there _ | expired there _ | swept there _ _ => exact .inl (hgoOn _ there rfl hfound)
  | listed there _ _ | started there =>
    exact .inl (hgoOn m.system there rfl hfound)
  | @worked other wait resume there =>
    rcases call_of_goOn there hfound with ⟨rfl, hstate⟩ | ⟨hne, hfound⟩
    · exact .inr (.inl ⟨wait, resume, rfl, there, hofPaused hstate⟩)
    · exact .inl (hother hne hfound)

/-- Every call that does other work goes on in an orderly way. -/
def WorksOrderly (m : Machine) : Prop :=
  ∀ (number : Nat) wait resume, m.calls[number]? = some (.working wait resume) →
    ∀ w, (resume w).KeepsTo World.Orderly w

/-- What keeps to an order in a stretch that comes to a wait keeps to it in the rest. -/
theorem keepsTo_rest {p : Paused World BindingError Unit} (h : p.KeepsTo World.Orderly w)
    {wait : Wait} {resume : World → Paused World BindingError Unit}
    (hp : p = .waiting w' wait resume) (found : World) :
    (resume found).KeepsTo World.Orderly found := by
  subst hp
  exact h.2 found trivial

/-- What keeps to an order leaves an orderly state behind in the stretch that comes first. -/
theorem keepsTo_state {p : Paused World BindingError Unit} (h : p.KeepsTo World.Orderly w) :
    w.Orderly p.state := by
  cases p with
  | ended _ _ => exact h
  | waiting _ _ _ => exact h.1

/-- Every turn that begins only orderly work leaves the calls orderly. -/
theorem WorksOrderly.turn (hturn : Turn executor m move d m')
    (hmove : ∀ program, move = .work program → program.Orderly) (h : m.WorksOrderly) :
    m'.WorksOrderly := by
  intro number wait' resume' hfound
  -- Work that is in progress keeps in order what it does, up to each of its waits and from there
  -- on.
  rcases hturn.working hfound with ⟨hfound, -⟩ | ⟨wait, resume, -, hthere, hstretch⟩ |
    ⟨program, hprogram, -, hstretch⟩
  · exact h number wait' resume' hfound
  · exact keepsTo_rest (h number wait resume hthere m.system.world) hstretch
  · exact keepsTo_rest (hmove program hprogram m.system.world) hstretch

/-- Every turn that begins only orderly work is orderly. -/
theorem Turn.orderly (hturn : Turn executor m move d m')
    (hmove : ∀ program, move = .work program → program.Orderly) (hphased : m.Phased executor)
    (h : m.WorksOrderly) : m.system.world.Orderly m'.system.world := by
  have huntouched : ∀ {w w' : World}, w.Untouched w' → w.Orderly w' :=
    fun hsame => .of_eq (Nat.le_of_eq (congrArg List.length hsame.contexts).symm) hsame.live
  have hraise : ∀ flag, m.system.world.Orderly (m.system.world.raiseFlag flag) :=
    fun _ => .of_eq (Nat.le_refl _) rfl
  -- Each turn is a stretch of a run, of other work, or of the scheduler, and each of them keeps the
  -- registry in order. A stretch of a run is known by the phase that it is in.
  cases hturn with
  | still _ same | called same _ _ _ | read _ same | swept _ same _ => exact huntouched same
  | raised _ same => exact (hraise _).trans (huntouched same)
  | began program => exact keepsTo_state (hmove program rfl m.system.world)
  | awaited _ | stored _ _ | unflagged _ _ | left _ _ _ | refused _ | listed _ _ _ | slept _ _
  | noticed _ _ | woken _ | collected _ | joined _ | stripped _ | closed _ | pruned _ _ =>
    exact .refl _
  | @ran number t there wait resume running world wait' resume' stretch =>
    obtain ⟨q, hq⟩ := hphased number t there (TaskState.performs_iff.mpr ⟨wait, resume, running⟩)
    obtain ⟨q', hstep, -⟩ := hq.ran running stretch
    exact hstep.orderly
  | @finished number t there wait resume running world result stretch =>
    obtain ⟨q, hq⟩ := hphased number t there (TaskState.performs_iff.mpr ⟨wait, resume, running⟩)
    exact (hq.finished running stretch).orderly
  | started _ => exact .of_eq (Nat.le_refl _) rfl
  | aborted _ _ => exact huntouched (System.untouched_abortAll m.system)
  | @discarded number run rest there => exact World.orderly_discardNow run m.system.world
  | @expired number now there world same =>
    exact (World.orderly_expireAt now _ m.system.world).trans (huntouched same)
  | @worked number wait resume there =>
    exact keepsTo_state (h number wait resume there m.system.world)

end Machine

end RunParams
