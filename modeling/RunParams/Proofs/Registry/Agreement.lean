import RunParams.Lookup.Memory
import RunParams.Proofs.Registry.Requests

/-!
# Calls of a registry that take turns

Any number of calls share a registry. At each moment one of them starts or goes on to its next wait,
in any order, and time passes in between. `Traffic` is what that comes to: the world, the calls that
wait, and the calls that have returned, the latest first, each with what was live when its last
stretch began and when it ended. A call that waits may be resumed at any time, also before what it
waits for is there, so nothing that can happen is left out.

`Traffic.agrees` says that whatever has happened, the returns agree with each other. A creation that
succeeds has inserted a context of its own, with a number that no other one has, at a moment when
the run had no entry. One that fails has changed nothing. And what a look-up returns is the context
of the last creation that succeeded, unless the run was discarded or has expired since (`standing`).
That creations do succeed, and fail for a reason only, is shown in
`RunParams.Proofs.Registry.Refusals`.
-/

namespace RunParams.Registry

/-- A call that has returned, with the entries that were live before and after its last stretch. -/
structure Return where
  request : Request
  result : Except BindingError Response
  before : KeyMap Entry
  after : KeyMap Entry

/-- A call that waits. -/
structure Waiting where
  request : Request
  resume : World → Paused World BindingError Response

/-- Calls that take turns at a registry. -/
structure Traffic where
  world : World
  waiting : List Waiting
  /-- The calls that have returned, the latest first. -/
  returned : List Return

/-- What happens next. -/
inductive Move where
  /-- A call starts. -/
  | call (request : Request)
  /-- A call that waits goes on. -/
  | resume (number : Nat)
  /-- Time passes, on the clock and in the calendar. -/
  | pass (ticks nanos : Nat)

namespace Traffic

/-- Nobody has called yet. -/
def start (settings : ResolverSettings) (backend : Backend) (draws : Draws) : Traffic :=
  ⟨.start settings backend draws, [], []⟩

/-- After a stretch of a call that leaves others waiting: the call waits as well, or it returns. -/
def stretch (t : Traffic) (others : List Waiting) (request : Request) :
    Paused World BindingError Response → Traffic
  | .waiting w _ resume => ⟨w, others ++ [⟨request, resume⟩], t.returned⟩
  | .ended w result => ⟨w, others, ⟨request, result, t.world.live, w.live⟩ :: t.returned⟩

/-- The world when some time has passed on the clock and in the calendar. -/
def later (w : World) (ticks nanos : Nat) : World :=
  { w.clockTo (w.around.clock + ticks) with calendar := w.calendar + nanos }

/-- What a move brings about. A call that does not wait cannot go on. -/
def move (t : Traffic) : Move → Traffic
  | .call request => t.stretch t.waiting request (request.program t.world)
  | .resume number =>
    match t.waiting[number]? with
    | none => t
    | some call => t.stretch (t.waiting.eraseIdx number) call.request (call.resume t.world)
  | .pass ticks nanos => { t with world := later t.world ticks nanos }

/-- What some moves bring about. -/
def run (t : Traffic) (moves : List Move) : Traffic := moves.foldl move t

end Traffic

/-! ## What the returns say -/

/-- The number of the context that a call has inserted, if it has. -/
def Return.inserted? (r : Return) : Option Nat :=
  match r.request, r.result with
  | .create _ _ _, .ok (.context number) => some number
  | _, _ => none

/-- The context that stands for a run after some returns: the one that the last successful creation
for it has inserted, unless it has been discarded or has expired since. -/
def standing (run : String) : List Return → Option Nat
  | [] => none
  | r :: earlier =>
    match r.request, r.result with
    | .create created _ _, .ok (.context number) =>
      if run = created then some number else standing run earlier
    | .discard discarded, _ => if run = discarded then none else standing run earlier
    | .discardExpired _, .ok (.runs expired) =>
      if run ∈ expired then none else standing run earlier
    | _, _ => standing run earlier

/-- The entries after some returns. -/
def entriesAfter : List Return → KeyMap Entry
  | [] => ∅
  | r :: _ => r.after

/-- A return that agrees with the earlier ones, given the settings and the contexts there are. -/
inductive Return.Lawful (settings : ResolverSettings) (contexts : List Context)
    (earlier : List Return) : Return → Prop
  /-- A creation that succeeds has inserted a context of its own where there was no entry. -/
  | created {run : String} {organization : Organization} {declarations : Declarations}
    {before : KeyMap Entry} {number : Nat} {c : Context} (free : before.get? run = none)
    (there : contexts[number]? = some c)
    (own : BoundFor settings run organization declarations c)
    (fresh : ∀ r ∈ earlier, r.inserted? ≠ some number) :
    Lawful settings contexts earlier ⟨.create run organization declarations,
      .ok (.context number), before, before.insert run ⟨number, c.createdAt⟩⟩
  /-- A creation that fails has changed no entry. -/
  | refused {run : String} {organization : Organization} {declarations : Declarations}
    {before : KeyMap Entry} {e : BindingError} :
    Lawful settings contexts earlier
      ⟨.create run organization declarations, .error e, before, before⟩
  /-- A look-up returns the context that stands for the run. -/
  | found {run : String} {before : KeyMap Entry} {number : Nat}
    (stands : standing run earlier = some number) :
    Lawful settings contexts earlier ⟨.get run, .ok (.context number), before, before⟩
  /-- A look-up fails when no context stands for the run. -/
  | missing {run : String} {before : KeyMap Entry} (free : standing run earlier = none) :
    Lawful settings contexts earlier ⟨.get run, .error (.contextMissing run), before, before⟩
  | answered {run : String} {before : KeyMap Entry} :
    Lawful settings contexts earlier
      ⟨.contains run, .ok (.truth (standing run earlier).isSome), before, before⟩
  | discarded {run : String} {before : KeyMap Entry} :
    Lawful settings contexts earlier
      ⟨.discard run, .ok (.truth (standing run earlier).isSome), before, before.erase run⟩
  /-- What has expired was there, and the other entries stay. -/
  | expired {maxAge : Duration} {runs : List String} {before : KeyMap Entry}
    (stand : ∀ run ∈ runs, (standing run earlier).isSome = true) :
    Lawful settings contexts earlier ⟨.discardExpired maxAge, .ok (.runs runs), before,
      before.filter fun run _ => !runs.contains run⟩

/-- Every return is lawful after the earlier ones, and begins with the entries that they have left.
-/
def Coherent (settings : ResolverSettings) (contexts : List Context) : List Return → Prop
  | [] => True
  | r :: earlier => r.before = entriesAfter earlier ∧ r.Lawful settings contexts earlier ∧
      Coherent settings contexts earlier

/-- The traffic so far is in agreement. -/
structure Traffic.Agrees (settings : ResolverSettings) (t : Traffic) : Prop where
  /-- Entries change only when calls return. -/
  live : t.world.live = entriesAfter t.returned
  /-- The live contexts are those that stand. -/
  standing : ∀ run, (t.world.live.get? run).map Entry.context = standing run t.returned
  coherent : Coherent settings t.world.contexts t.returned

variable {settings : ResolverSettings} {contexts contexts' : List Context}
  {earlier : List Return} {r : Return} {t : Traffic}

/-- What is lawful remains so when contexts are added. -/
theorem Return.Lawful.mono (hmore : contexts <+: contexts')
    (h : r.Lawful settings contexts earlier) : r.Lawful settings contexts' earlier := by
  -- Only a creation speaks of a context, and it is where it was when more are added.
  cases h with
  | created free there own fresh =>
    obtain ⟨added, rfl⟩ := hmore
    have hused := (List.getElem?_eq_some_iff.mp there).1
    exact .created free ((List.getElem?_append_left hused).trans there) own fresh
  | refused => exact .refused
  | found stands => exact .found stands
  | missing free => exact .missing free
  | answered => exact .answered
  | discarded => exact .discarded
  | expired stand => exact .expired stand

/-- What is coherent remains so when contexts are added. -/
theorem Coherent.mono (hmore : contexts <+: contexts')
    (h : Coherent settings contexts earlier) : Coherent settings contexts' earlier := by
  induction earlier with
  | nil => trivial
  | cons r earlier ih =>
    obtain ⟨hbefore, hlawful, hrest⟩ := h
    exact ⟨hbefore, hlawful.mono hmore, ih hrest⟩

/-- A call that waits goes on as it should from wherever it is resumed. -/
def Waiting.GoesOn (settings : ResolverSettings) (call : Waiting) : Prop :=
  ∀ w, HasSettings settings w →
    (call.resume w).Meets (HasSettings settings) Quiet (call.request.Returns settings) w

/-- What holds between moves: the traffic is in agreement, the numbers of the contexts that were
inserted are in use, and the calls that wait go on as they should. -/
structure Traffic.Sound (settings : ResolverSettings) (t : Traffic) : Prop where
  agrees : t.Agrees settings
  same : HasSettings settings t.world
  used : ∀ r ∈ t.returned, ∀ number, r.inserted? = some number →
    number < t.world.contexts.length
  waiting : ∀ call ∈ t.waiting, call.GoesOn settings

/-- Nothing is lost when nothing changes for the registry. -/
theorem Traffic.Sound.of_quiet (h : t.Sound settings) {w : World} (hquiet : Quiet t.world w)
    {others : List Waiting} (hothers : ∀ call ∈ others, call.GoesOn settings) :
    Traffic.Sound settings ⟨w, others, t.returned⟩ := by
  -- A stretch that is quiet leaves contexts and live entries, and these are all that the returns
  -- speak of.
  have hlive : w.live = entriesAfter t.returned := by rw [hquiet.live, h.agrees.live]
  have hsame : HasSettings settings w := hquiet.settings.trans h.same
  refine ⟨⟨hlive, fun run => ?_, ?_⟩, hsame, ?_, hothers⟩
  · rw [hquiet.live]
    exact h.agrees.standing run
  · rw [hquiet.contexts]
    exact h.agrees.coherent
  · rw [hquiet.contexts]
    exact h.used

/-- Nothing is lost when a call returns what is lawful, leaves the contexts there are and makes live
what then stands. -/
theorem Traffic.Sound.of_return (h : t.Sound settings) {w : World}
    (hbefore : r.before = t.world.live) (hafter : r.after = w.live)
    (hsame : w.settings = t.world.settings) (hmore : t.world.contexts <+: w.contexts)
    (hlawful : r.Lawful settings w.contexts t.returned)
    (hstanding : ∀ run, (w.live.get? run).map Entry.context = standing run (r :: t.returned))
    (hused : ∀ number, r.inserted? = some number → number < w.contexts.length)
    {others : List Waiting} (hothers : ∀ call ∈ others, call.GoesOn settings) :
    Traffic.Sound settings ⟨w, others, r :: t.returned⟩ := by
  have hbegins : r.before = entriesAfter t.returned := by rw [hbefore, h.agrees.live]
  -- The earlier returns speak of contexts that are all still there.
  have hearlier : Coherent settings w.contexts t.returned := h.agrees.coherent.mono hmore
  refine ⟨⟨hafter.symm, hstanding, hbegins, hlawful, hearlier⟩, hsame.trans h.same, ?_, hothers⟩
  -- A number that was inserted is that of the return which has just come, or of an earlier one.
  intro other hother number hnumber
  rcases List.mem_cons.mp hother with rfl | hother
  · exact hused number hnumber
  · have hless : number < t.world.contexts.length := h.used other hother number hnumber
    exact Nat.lt_of_lt_of_le hless hmore.length_le

/-- Nothing is lost when a call returns that changes nothing for the registry and lawfully says so.
-/
theorem Traffic.Sound.of_quiet_return (h : t.Sound settings) {w : World} (hquiet : Quiet t.world w)
    {request : Request} {result : Except BindingError Response}
    (hlawful : Return.Lawful settings t.world.contexts t.returned
      ⟨request, result, t.world.live, t.world.live⟩)
    (hstanding : ∀ run, standing run (⟨request, result, t.world.live, w.live⟩ :: t.returned) =
      standing run t.returned)
    (hused : ∀ live live', Return.inserted? ⟨request, result, live, live'⟩ = none)
    {others : List Waiting} (hothers : ∀ call ∈ others, call.GoesOn settings) :
    Traffic.Sound settings ⟨w, others, ⟨request, result, t.world.live, w.live⟩ :: t.returned⟩ := by
  refine h.of_return rfl rfl hquiet.settings (hquiet.contexts ▸ List.prefix_refl _) ?_ ?_ ?_ hothers
  · rw [hquiet.contexts, hquiet.live]
    exact hlawful
  · intro run
    rw [hstanding, hquiet.live]
    exact h.agrees.standing run
  · intro number hnumber
    rw [hused] at hnumber
    cases hnumber

/-- A run is live just when a context stands for it. -/
theorem Traffic.Agrees.contains_eq (h : t.Agrees settings) (run : String) :
    t.world.live.contains run = (Registry.standing run t.returned).isSome := by
  rw [← h.standing run, Option.isSome_map]
  rfl

/-- The last stretch of a call keeps the traffic sound. -/
theorem Traffic.Sound.of_returns (h : t.Sound settings) {request : Request} {w : World}
    {result : Except BindingError Response}
    (hreturns : request.Returns settings t.world w result)
    {others : List Waiting} (hothers : ∀ call ∈ others, call.GoesOn settings) :
    Traffic.Sound settings ⟨w, others, ⟨request, result, t.world.live, w.live⟩ :: t.returned⟩ := by
  -- One case for each way in which a request may return. In each it is said what was live before,
  -- what is live now, and that the two agree with what stands.
  cases hreturns with
  | @created run organization declarations _ _ c free own contexts live same =>
    -- The number of the context is the next one, so no earlier creation has it.
    have hnumber : w.contexts[t.world.contexts.length]? = some c := by
      rw [contexts, List.getElem?_concat_length]
    refine h.of_return rfl rfl same (contexts ▸ List.prefix_append _ _) ?_ ?_ ?_ hothers
    · rw [live]
      refine .created free hnumber own fun r hr hinserted => ?_
      exact Nat.lt_irrefl _ (h.used r hr _ hinserted)
    · intro other
      rw [live, KeyMap.get?_insert]
      unfold Registry.standing
      dsimp only
      -- The new entry stands for its run, and for any other one what stood before.
      by_cases hother : other = run
      · rw [if_pos hother, if_pos hother]
        rfl
      · rw [if_neg hother, if_neg hother]
        exact h.agrees.standing other
    · intro number hinserted
      have hlength : w.contexts.length = t.world.contexts.length + 1 := by
        rw [contexts, List.length_append, List.length_singleton]
      cases hinserted
      omega
  -- A call that is quiet to its end leaves what stands and what is live.
  | refused quiet => exact h.of_quiet_return quiet .refused (fun _ => rfl) (fun _ _ => rfl) hothers
  -- What the request finds in the registry is what the returns say that stands.
  | @found run _ _ entry quiet there =>
    have hstands : standing run t.returned = some entry.context := by
      rw [← h.agrees.standing run, there]
      rfl
    exact h.of_quiet_return quiet (.found hstands) (fun _ => rfl) (fun _ _ => rfl) hothers
  | @missing run _ _ quiet free =>
    have hstands : standing run t.returned = none := by
      rw [← h.agrees.standing run, free]
      rfl
    exact h.of_quiet_return quiet (.missing hstands) (fun _ => rfl) (fun _ _ => rfl) hothers
  | @answered run _ _ quiet =>
    rw [h.agrees.contains_eq run]
    exact h.of_quiet_return quiet .answered (fun _ => rfl) (fun _ _ => rfl) hothers
  | @discarded run _ _ contexts live same =>
    rw [h.agrees.contains_eq run]
    refine h.of_return rfl rfl same (contexts ▸ List.prefix_refl _) ?_ ?_ ?_ hothers
    · rw [live]
      exact .discarded
    · intro other
      rw [live, KeyMap.get?_erase]
      unfold Registry.standing
      dsimp only
      -- After a discard nothing stands for this run, and for any other one what stood before.
      by_cases hother : other = run
      · rw [if_pos hother, if_pos hother]
        rfl
      · rw [if_neg hother, if_neg hother]
        exact h.agrees.standing other
    · exact fun number hinserted => nomatch hinserted
  | @expired maxAge _ _ runs there contexts live same =>
    refine h.of_return rfl rfl same (contexts ▸ List.prefix_refl _) ?_ ?_ ?_ hothers
    · rw [live]
      refine .expired fun run hrun => ?_
      rw [← h.agrees.contains_eq run]
      exact there run hrun
    · -- What is dropped is what the call returns, so that is what stands no more.
      intro other
      rw [live, KeyMap.get?_filter]
      unfold Registry.standing
      dsimp only
      by_cases hother : other ∈ runs
      · have hcontains : runs.contains other = true := List.contains_iff_mem.mpr hother
        rw [if_pos hother, hcontains]
        cases t.world.live.get? other <;> rfl
      · have hcontains : runs.contains other = false :=
          Bool.eq_false_iff.mpr fun hin => hother (List.contains_iff_mem.mp hin)
        rw [if_neg hother, ← h.agrees.standing other, hcontains]
        cases t.world.live.get? other <;> rfl
    · exact fun number hinserted => nomatch hinserted

/-- A stretch of a call keeps the traffic sound. -/
theorem Traffic.Sound.stretch (h : t.Sound settings) {request : Request}
    {p : Paused World BindingError Response} {others : List Waiting}
    (hp : p.Meets (HasSettings settings) Quiet (request.Returns settings) t.world)
    (hothers : others ⊆ t.waiting) : (t.stretch others request p).Sound settings := by
  -- The call has returned, or it waits and promises the same for whenever it goes on.
  cases p with
  | ended w result => exact h.of_returns hp fun call hcall => h.waiting call (hothers hcall)
  | waiting w wait resume =>
    obtain ⟨hquiet, hrest⟩ := hp
    refine h.of_quiet hquiet fun call hcall => ?_
    -- The call itself is the last of those that wait now.
    rcases List.mem_append.mp hcall with hcall | hcall
    · exact h.waiting call (hothers hcall)
    · cases List.mem_singleton.mp hcall
      exact hrest

/-- A move keeps the traffic sound. -/
theorem Traffic.Sound.move (h : t.Sound settings) (m : Move) : (t.move m).Sound settings := by
  -- A new call promises by its program, one that goes on by what it has promised at its wait, and
  -- the passing of time is quiet.
  cases m with
  | call request => exact h.stretch (request.meets t.world) (List.Subset.refl _)
  | resume number =>
    unfold Traffic.move
    -- A move that resumes nobody does nothing.
    cases hcall : t.waiting[number]? with
    | none =>
      simp only [hcall]
      exact h
    | some call =>
      simp only [hcall]
      have hmeets := h.waiting call (List.mem_of_getElem? hcall) t.world h.same
      exact h.stretch hmeets (List.eraseIdx_subset)
  | pass ticks nanos =>
    have hquiet : Quiet t.world (later t.world ticks nanos) := ⟨rfl, rfl, rfl⟩
    exact h.of_quiet hquiet h.waiting

/-- Moves keep the traffic sound. -/
theorem Traffic.Sound.run (h : t.Sound settings) (moves : List Move) :
    (t.run moves).Sound settings := by
  induction moves generalizing t with
  | nil => exact h
  | cons m rest ih => exact ih (h.move m)

/-- Without any calls the traffic is sound. -/
theorem Traffic.sound_start (settings : ResolverSettings) (backend : Backend) (draws : Draws) :
    (Traffic.start settings backend draws).Sound settings := by
  have hagrees : (Traffic.start settings backend draws).Agrees settings :=
    ⟨rfl, fun _ => rfl, trivial⟩
  refine ⟨hagrees, rfl, ?_, ?_⟩
  · exact fun _ hr => absurd hr List.not_mem_nil
  · exact fun _ hcall => absurd hcall List.not_mem_nil

/-- The calls of a registry agree, in whatever order they take turns. A creation returns a context
only if it has inserted it itself, at a moment when its run had no entry, so that no live context is
ever replaced; a creation that fails changes no entry; and a look-up returns exactly the context
that the last successful creation for the run has inserted, when it was neither discarded nor has
expired since, and fails otherwise, since the run has no context. -/
theorem Traffic.agrees (settings : ResolverSettings) (backend : Backend) (draws : Draws)
    (moves : List Move) : ((Traffic.start settings backend draws).run moves).Agrees settings := by
  have hstart : (Traffic.start settings backend draws).Sound settings :=
    sound_start settings backend draws
  exact (hstart.run moves).agrees

/-- Two creations for one run both find it without a context and bind their declarations before
either of them inserts its own. The first one to come back is served and the second one is refused,
although it began without an entry; a look-up finds the context of the first, and none once it has
been discarded. -/
example :
    let create : Request := .create "run" ⟨"acme", none⟩ .none
    let t := (Traffic.start .standard (Memory.backend .empty) default).run
      [.call create, .call create, .resume 0, .resume 0, .resume 0, .call (.get "run"), .resume 1,
        .resume 0, .call (.discard "run"), .resume 0, .call (.get "run"), .resume 0]
    t.waiting.length = 0 ∧
      t.returned.reverse.map (fun r => (r.inserted?, r.result.isOk,
        (r.after.get? "run").map Entry.context)) =
        [(some 0, true, some 0), (none, true, some 0), (none, false, some 0), (none, true, none),
          (none, false, none)] := by
  decide +kernel

end RunParams.Registry
