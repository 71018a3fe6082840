import RunParams.Lookup.Memory
import RunParams.Proofs.Isolation.Works
import RunParams.Proofs.Registry.Agreement

/-!
# Isolation of runs

Any number of errands are under way at a registry: calls, and changes of the live contexts of runs.
At each moment a new one is begun or one that waits goes on to its next wait, in any order and also
before what it waits for is there, and time passes in between (`Crowd`).

Two things keep the runs apart. A stretch of an errand respects the contexts of the runs to which
the errand is not addressed. And the ids that are drawn belong to the errand that has drawn them:
a context is made by one errand, and its handles are made from ids of that errand
(`Crowd.Sound`). So a handle of one context is made from other ids than the handles of any other
context, if no id has been drawn twice.

`Crowd.keeps_apart` says both of every moment. Contexts keep their number for ever, so it speaks of
contexts that were live at different times, also under the same run, as well as of those that are
live at once.
-/

namespace RunParams

/-- No id has been drawn twice. -/
def Draws.Distinct (d : Draws) : Prop :=
  ∀ i < d.next, ∀ j < d.next, d.stream i = d.stream j → i = j

instance (d : Draws) : Decidable d.Distinct :=
  inferInstanceAs (Decidable (∀ i < d.next, ∀ j < d.next, d.stream i = d.stream j → i = j))

namespace Registry

/-- How far an errand has come. -/
inductive Progress where
  | waiting (resume : World → Paused World BindingError (Option Response))
  | returned (result : Except BindingError (Option Response))

/-- How far an errand has come after a stretch. -/
def Progress.after : Paused World BindingError (Option Response) → Progress
  | .waiting _ _ resume => .waiting resume
  | .ended _ result => .returned result

/-- Work that has been begun. -/
structure Errand where
  work : Work
  progress : Progress

/-- Errands that take turns at a registry. -/
structure Crowd where
  world : World
  /-- The errands in the order in which they were begun. -/
  errands : List Errand

namespace Crowd

/-- What happens next. -/
inductive Move where
  /-- Work is begun. -/
  | begin (work : Work)
  /-- An errand that waits goes on. -/
  | resume (number : Nat)
  /-- Time passes, on the clock and in the calendar. -/
  | pass (ticks nanos : Nat)

/-- Nothing has been begun yet. -/
def start (settings : ResolverSettings) (backend : Backend) (draws : Draws) : Crowd :=
  ⟨.start settings backend draws, []⟩

/-- What a move brings about. An errand that does not wait cannot go on. -/
def move (t : Crowd) : Move → Crowd
  | .begin work =>
    let stretch := work.program t.world
    ⟨stretch.state, t.errands ++ [⟨work, .after stretch⟩]⟩
  | .resume number =>
    match t.errands[number]? with
    | some ⟨work, .waiting resume⟩ =>
      let stretch := resume t.world
      ⟨stretch.state, t.errands.set number ⟨work, .after stretch⟩⟩
    | _ => t
  | .pass ticks nanos => { t with world := Traffic.later t.world ticks nanos }

/-- What some moves bring about. -/
def run (t : Crowd) (moves : List Move) : Crowd := moves.foldl move t

/-- The work that goes on in a move, if any does. -/
def acting? (t : Crowd) : Move → Option Work
  | .begin work => some work
  | .resume number => (t.errands[number]?).map Errand.work
  | .pass _ _ => none

/-- No context reveals anything under a handle of another one, nor under the handle of a seed that
goes with it. -/
def Apart (t : Crowd) : Prop :=
  ∀ (n n' : Nat) (c c' : Context), t.world.contexts[n]? = some c →
    t.world.contexts[n']? = some c' → n ≠ n' → ∀ handle, c.vault.contains handle = true →
      c'.vault.reveal (.text handle) = none ∧
        c'.vault.reveal (.text (Vault.seedHandle handle)) = none

/-! ## Whose ids they are -/

variable {owner owner' : Nat → Nat} {d d' : Draws} {k n : Nat} {id : Uuid}

/-- An errand has drawn an id: every place of the stream up to the next one has an owner. -/
def Drew (owner : Nat → Nat) (d : Draws) (k : Nat) (id : Uuid) : Prop :=
  ∃ i < d.next, owner i = k ∧ d.stream i = id

/-- Who owns the places of a stream when those from some place on fall to an errand. -/
def handOver (owner : Nat → Nat) (next k : Nat) : Nat → Nat :=
  fun i => if i < next then owner i else k

/-- What an errand has drawn remains its own when more ids are drawn. -/
theorem Drew.mono (h : Drew owner d k id) (hlater : d.Later d')
    (howner : ∀ i < d.next, owner' i = owner i) : Drew owner' d' k id := by
  obtain ⟨i, hi, hk, hid⟩ := h
  exact ⟨i, Nat.lt_of_lt_of_le hi hlater.next, (howner i hi).trans hk, hlater.stream ▸ hid⟩

/-- What is drawn in a stretch of an errand falls to it. -/
theorem drew_of_mem_since (hlater : d.Later d') (h : id ∈ d.since d') :
    Drew (handOver owner d.next k) d' k id := by
  obtain ⟨i, hle, hlt, hid⟩ := Draws.mem_since.mp h
  exact ⟨i, hlt, if_neg (Nat.not_lt_of_le hle), hlater.stream ▸ hid⟩

/-- If no id has been drawn twice, an id has been drawn by one errand only. -/
theorem Drew.unique {k' : Nat} (h : Drew owner d k id) (h' : Drew owner d k' id)
    (hdistinct : d.Distinct) : k = k' := by
  obtain ⟨i, hi, rfl, hid⟩ := h
  obtain ⟨j, hj, rfl, hid'⟩ := h'
  rw [hdistinct i hi j hj (hid.trans hid'.symm)]

/-! ## Errands and what they have made -/

/-- What is remembered of an errand is so. -/
def Fits (owner : Nat → Nat) (k : Nat) (work : Work) (w : World) : Pursuit → Prop
  | .plain => True
  | .creating creation =>
    (∀ lead, creation.lead = some lead → lead = w.settings.handleLead) ∧
      ∀ id ∈ creation.ids, Drew owner w.around.draws k id
  | .found number =>
    ∃ c : Context, w.contexts[number]? = some c ∧ work.addresses c.run = true

/-- A context was made by an errand: the errand has returned it, and has drawn the ids from which
its handles are made. -/
structure MadeBy (owner : Nat → Nat) (t : Crowd) (k n : Nat) (c : Context) : Prop where
  returned : ∃ work, t.errands[k]? = some ⟨work, .returned (.ok (some (.context n)))⟩
  lead : c.vault.lead = t.world.settings.handleLead
  minted : ∃ ids, c.vault.Minted ids ∧ ∀ id ∈ ids, Drew owner t.world.around.draws k id

/-- What holds between moves: a live context is one of its run, every context was made by some
errand, and the errands that wait go on as they should from wherever they are resumed. -/
structure Sound (owner : Nat → Nat) (t : Crowd) : Prop where
  live : ∀ run entry, t.world.live.get? run = some entry →
    ∃ c, t.world.contexts[entry.context]? = some c ∧ c.run = run
  made : ∀ n c, t.world.contexts[n]? = some c → ∃ k, MadeBy owner t k n c
  waiting : ∀ k work resume, t.errands[k]? = some ⟨work, .waiting resume⟩ →
    ∃ q, Fits owner k work t.world q ∧ ∀ w, (resume w).Follows work.Step work.Returns q w

/-- How things stand to each other before and after a move: ids keep their owners, and contexts keep
their runs and vaults. -/
structure Onward (owner owner' : Nat → Nat) (w w' : World) : Prop where
  owners : ∀ i < w.around.draws.next, owner' i = owner i
  draws : w.around.draws.Later w'.around.draws
  settings : w'.settings = w.settings
  kept : ∀ (n : Nat) (c : Context), w.contexts[n]? = some c →
    ∃ c' : Context, w'.contexts[n]? = some c' ∧ c'.run = c.run ∧ c'.vault = c.vault

variable {t t' : Crowd} {w w' : World} {work : Work} {q q' : Pursuit} {c : Context} {m : Move}
  {p : Paused World BindingError (Option Response)}

/-- Work that respects what is there is a way onward, if what it draws falls to its errand. -/
theorem onward_of_respects (h : work.Respects w w') (k : Nat) :
    Onward owner (handOver owner w.around.draws.next k) w w' :=
  ⟨fun _ hi => if_pos hi, h.draws, h.settings, h.kept⟩

/-- What happens aside is a way onward. -/
theorem onward_of_aside (h : w.Aside w') : Onward owner owner w w' :=
  ⟨fun _ _ => rfl, h.draws, h.quiet.settings,
    fun _ c hc => ⟨c, h.quiet.contexts ▸ hc, rfl, rfl⟩⟩

/-- What is remembered of an errand remains so. -/
theorem Fits.onward (h : Fits owner k work w q) (hon : Onward owner owner' w w') :
    Fits owner' k work w' q := by
  -- A plain phase claims nothing; a creation claims ids and a context, which nobody takes away.
  cases q with
  | plain => trivial
  | creating creation =>
    obtain ⟨hlead, hids⟩ := h
    exact ⟨fun lead hl => hon.settings ▸ hlead lead hl,
      fun id hid => (hids id hid).mono hon.draws hon.owners⟩
  | found number =>
    obtain ⟨c, hc, haddressed⟩ := h
    obtain ⟨c', hc', hrun, -⟩ := hon.kept number c hc
    exact ⟨c', hc', hrun ▸ haddressed⟩

/-- A context that an errand has made remains so. -/
theorem MadeBy.onward (h : MadeBy owner t k n c) (hon : Onward owner owner' t.world t'.world)
    (hsame : t'.errands[k]? = t.errands[k]?) {c' : Context} (hvault : c'.vault = c.vault) :
    MadeBy owner' t' k n c' := by
  obtain ⟨hreturned, hlead, ids, hminted, hids⟩ := h
  refine ⟨hsame ▸ hreturned, ?_, ids, hvault ▸ hminted, fun id hid => ?_⟩
  · rw [hvault, hon.settings]
    exact hlead
  · exact (hids id hid).mono hon.draws hon.owners

/-- What a stretch leads to is remembered rightly. -/
theorem Fits.step {wait : Wait} (h : Fits owner k work w q) (hstep : work.Step q w w' wait q')
    (hlive : ∀ run entry, w.live.get? run = some entry →
      ∃ c, w.contexts[entry.context]? = some c ∧ c.run = run) :
    Fits (handOver owner w.around.draws.next k) k work w' q' := by
  have hon : Onward owner (handOver owner w.around.draws.next k) w w' :=
    onward_of_respects (.aside hstep.aside work) k
  -- A creation has drawn ids and may have filled a vault with them; a look has found a context.
  cases hstep with
  | @creates run organization declarations creation _ _ _ _ step =>
    have honward := h.onward hon
    rcases step.phase with ⟨rfl, -⟩ | rfl
    · exact honward
    · obtain ⟨hlead, hids⟩ := honward
      refine ⟨fun lead hl => ?_, fun id hid => ?_⟩
      · -- The lead is the one of before, or it is set now.
        change some (creation.lead.getD w.settings.handleLead) = some lead at hl
        cases hbefore : creation.lead with
        | none =>
          rw [hbefore] at hl
          cases hl
          exact congrArg ResolverSettings.handleLead hon.settings.symm
        | some before =>
          rw [hbefore] at hl
          cases hl
          exact hlead before hbefore
      · -- The ids of before are the errand's, and those drawn in this stretch become its.
        rcases List.mem_append.mp hid with hid | hid
        · exact hids id hid
        · exact drew_of_mem_since hon.draws hid
  | looks aside there =>
    obtain ⟨c, hc, hrun⟩ := hlive _ _ there
    exact ⟨c, aside.quiet.contexts ▸ hc, decide_eq_true hrun.symm⟩
  | waits aside => trivial

/-! ## Moves -/

/-- What a move comes to: time passes or nothing happens, or an errand that has not returned goes on
as it should. -/
inductive Moves (owner : Nat → Nat) (t : Crowd) (m : Move) (t' : Crowd) : Prop
  | idle (aside : t.world.Aside t'.world) (errands : t'.errands = t.errands)
  | stretch {k : Nat} {work : Work} {q : Pursuit}
    {p : Paused World BindingError (Option Response)} (acts : t.acting? m = some work)
    (fits : Fits owner k work t.world q) (follows : p.Follows work.Step work.Returns q t.world)
    (unfinished : ∀ work result, t.errands[k]? ≠ some ⟨work, .returned result⟩)
    (world : t'.world = p.state) (itself : t'.errands[k]? = some ⟨work, .after p⟩)
    (others : ∀ j, j ≠ k → t'.errands[j]? = t.errands[j]?)

/-- With what a piece of work begins fits, since nothing is remembered of it. -/
theorem fits_beginning (owner : Nat → Nat) (k : Nat) (work : Work) (w : World) :
    Fits owner k work w work.beginning := by
  cases work with
  | request request =>
    cases request with
    | create run organization declarations =>
      exact ⟨fun _ hlead => (nomatch hlead), fun _ hid => absurd hid List.not_mem_nil⟩
    | get run => trivial
    | contains run => trivial
    | discard run => trivial
    | discardExpired maxAge => trivial
  | change run change => trivial

/-- An errand that does not wait cannot go on. -/
theorem move_resume_of_idle {number : Nat}
    -- Only an errand that waits can be resumed.
    (h : ∀ work resume, t.errands[number]? ≠ some ⟨work, .waiting resume⟩) :
    t.move (.resume number) = t := by
  unfold Crowd.move
  cases herrand : t.errands[number]? with
  | none => simp only [herrand]
  | some errand =>
    obtain ⟨work, progress⟩ := errand
    cases progress with
    | returned result => simp only [herrand]
    | waiting resume => exact absurd herrand (h work resume)

/-- An errand that waits goes on. -/
theorem move_resume {number : Nat} {resume : World → Paused World BindingError (Option Response)}
    (h : t.errands[number]? = some ⟨work, .waiting resume⟩) :
    t.move (.resume number) = ⟨(resume t.world).state,
      t.errands.set number ⟨work, .after (resume t.world)⟩⟩ := by
  unfold Crowd.move
  simp only [h]

/-- Every move comes to that. -/
theorem Sound.moves (h : t.Sound owner) (m : Move) : t.Moves owner m (t.move m) := by
  -- A new errand does its first stretch, one that waits its next one, and the rest is idle.
  cases m with
  | begin work =>
    have hnone : ∀ j, t.errands.length ≤ j → t.errands[j]? = none :=
      fun _ => List.getElem?_eq_none
    refine .stretch rfl (fits_beginning owner t.errands.length work t.world) (work.follows t.world)
      (fun work result => ?_) rfl List.getElem?_concat_length fun j hj => ?_
    · -- The errand is new, so it has not returned before.
      rw [hnone _ (Nat.le_refl _)]
      exact nofun
    · show (t.errands ++ [_])[j]? = _
      rw [List.getElem?_append]
      -- The others have the numbers of before.
      by_cases hless : j < t.errands.length
      · rw [if_pos hless]
      · rw [if_neg hless, hnone j (by omega), List.getElem?_eq_none]
        rw [List.length_singleton]
        omega
  | resume number =>
    by_cases hwaits : ∃ work resume, t.errands[number]? = some ⟨work, .waiting resume⟩
    · obtain ⟨work, resume, herrand⟩ := hwaits
      have hacts : t.acting? (.resume number) = some work := by
        unfold Crowd.acting?
        simp only [herrand, Option.map_some]
      have hthere : number < t.errands.length := (List.getElem?_eq_some_iff.mp herrand).1
      obtain ⟨q, hfits, hfollows⟩ := h.waiting number work resume herrand
      rw [move_resume herrand]
      refine .stretch hacts hfits (hfollows t.world) (fun work' result hreturned => ?_) rfl
        (List.getElem?_set_self hthere) fun j hj => List.getElem?_set_ne hj.symm
      rw [herrand] at hreturned
      cases hreturned
    · rw [move_resume_of_idle fun work resume herrand => hwaits ⟨work, resume, herrand⟩]
      exact .idle (.refl t.world) rfl
  | pass ticks nanos => exact .idle ⟨⟨rfl, rfl, rfl⟩, rfl, .refl _⟩ rfl

/-- What was found fits. -/
theorem Fits.found (h : Fits owner k work w q) (number : Nat) (hq : q = .found number) :
    ∃ c : Context, w.contexts[number]? = some c ∧ work.addresses c.run = true := by
  subst hq
  exact h

/-- Things stay sound when time passes or nothing happens. -/
theorem Sound.idle (h : t.Sound owner) (haside : t.world.Aside t'.world)
    (herrands : t'.errands = t.errands) : t'.Sound owner := by
  have hon : Onward owner owner t.world t'.world := onward_of_aside haside
  -- The three parts of the invariant: entries have contexts, contexts have makers, and errands that
  -- wait stand in a phase that fits.
  refine ⟨fun run entry hentry => ?_, fun n c hc => ?_, fun k work resume hk => ?_⟩
  · rw [haside.quiet.live] at hentry
    rw [haside.quiet.contexts]
    exact h.live run entry hentry
  · rw [haside.quiet.contexts] at hc
    obtain ⟨k, hmade⟩ := h.made n c hc
    exact ⟨k, hmade.onward hon (by rw [herrands]) rfl⟩
  · rw [herrands] at hk
    obtain ⟨q, hfits, hfollows⟩ := h.waiting k work resume hk
    exact ⟨q, hfits.onward hon, hfollows⟩

/-- Things stay sound when an errand goes on. -/
theorem Sound.stretch (h : t.Sound owner) (hfits : Fits owner k work t.world q)
    (hfollows : p.Follows work.Step work.Returns q t.world)
    (hunfinished : ∀ work result, t.errands[k]? ≠ some ⟨work, .returned result⟩)
    (hworld : t'.world = p.state) (hitself : t'.errands[k]? = some ⟨work, .after p⟩)
    (hothers : ∀ j, j ≠ k → t'.errands[j]? = t.errands[j]?) :
    t'.Sound (handOver owner t.world.around.draws.next k) := by
  have hrespects : work.Respects t.world t'.world :=
    hworld ▸ Work.respects_of_follows hfollows hfits.found
  have hadds : Work.Adds q t.world p := Work.adds_of_follows hfollows
  have hon : Onward owner (handOver owner t.world.around.draws.next k) t.world t'.world :=
    onward_of_respects hrespects k
  -- The same three parts after a stretch of an errand.
  refine ⟨fun run entry hentry => ?_, fun n c hc => ?_, fun j work' resume hj => ?_⟩
  · rw [hworld] at hentry ⊢
    -- The entry was there before, or the errand has made it and its context.
    rcases hadds.live run entry hentry with hbefore | hnew
    · obtain ⟨c, hc, hrun⟩ := h.live run entry hbefore
      obtain ⟨c', hc', hrun', -⟩ := hrespects.kept _ c hc
      exact ⟨c', hworld ▸ hc', hrun'.trans hrun⟩
    · exact hnew
  · cases hbefore : t.world.contexts[n]? with
    | some before =>
      -- The errand that made the context has returned, so it is another one.
      obtain ⟨maker, hmade⟩ := h.made n before hbefore
      obtain ⟨c', hc', -, hvault⟩ := hrespects.kept n before hbefore
      have hsame : c' = c := Option.some.inj (hc'.symm.trans hc)
      obtain ⟨work', hreturned⟩ := hmade.returned
      have hother : maker ≠ k := fun hk => hunfinished work' _ (hk ▸ hreturned)
      exact ⟨maker, hmade.onward hon (hothers maker hother) (hsame ▸ hvault)⟩
    | none =>
      -- The context is new, so this errand is a creation that returns with it in this stretch.
      obtain ⟨hp, creation, rfl, hfills⟩ := hadds.contexts n c (hworld ▸ hc) hbefore
      obtain ⟨hlead, hids⟩ := hfits.onward hon
      refine ⟨k, ⟨work, ?_⟩, hlead _ hfills.lead, creation.ids, hfills.minted, hids⟩
      rw [hitself, hp]
      rfl
  · -- The errand itself is in its next phase, and the others fit as they did.
    by_cases hself : j = k
    · subst hself
      have herrand : some (Errand.mk work (.after p)) = some ⟨work', .waiting resume⟩ :=
        hitself.symm.trans hj
      cases p with
      | ended w result => cases herrand
      | waiting w wait resume' =>
        cases herrand
        obtain ⟨q', hstep, hrest⟩ := hfollows
        exact ⟨q', hworld ▸ hfits.step hstep h.live, hrest⟩
    · obtain ⟨q', hfits', hfollows'⟩ := h.waiting j work' resume ((hothers j hself).symm.trans hj)
      exact ⟨q', hfits'.onward hon, hfollows'⟩

/-- A move keeps things sound. -/
theorem Sound.move (h : t.Sound owner) (m : Move) : ∃ owner', (t.move m).Sound owner' := by
  cases h.moves m with
  | idle aside errands => exact ⟨owner, h.idle aside errands⟩
  | stretch acts fits follows unfinished world itself others =>
    exact ⟨_, h.stretch fits follows unfinished world itself others⟩

/-- Moves keep things sound. -/
theorem Sound.run (h : t.Sound owner) (moves : List Move) :
    ∃ owner', (t.run moves).Sound owner' := by
  induction moves generalizing owner t with
  | nil => exact ⟨owner, h⟩
  | cons m rest ih =>
    obtain ⟨owner', hmove⟩ := h.move m
    exact ih hmove

/-- Where nothing has been begun, things are sound. -/
theorem sound_start (settings : ResolverSettings) (backend : Backend) (draws : Draws)
    (owner : Nat → Nat) : (start settings backend draws).Sound owner :=
  ⟨fun _ _ hentry => (nomatch hentry), fun _ _ hc => (nomatch hc), fun _ _ _ hk => (nomatch hk)⟩

/-- Where things are sound and no id has been drawn twice, no context reveals what another one
keeps. -/
theorem Sound.apart (h : t.Sound owner) (hdistinct : t.world.around.draws.Distinct) : t.Apart := by
  -- Each context was filled from ids that its maker has drawn. A handle of one of them that the
  -- other revealed would be made from an id that both have drawn.
  intro n n' c c' hc hc' hne handle hcontains
  obtain ⟨k, ⟨work, hreturned⟩, hlead, ids, hminted, hids⟩ := h.made n c hc
  obtain ⟨k', ⟨work', hreturned'⟩, hlead', ids', hminted', hids'⟩ := h.made n' c' hc'
  obtain ⟨id, hid, hmade⟩ := hminted handle hcontains
  have hmade' : Vault.MadeFrom c'.vault.lead id handle := by
    rw [hlead', ← hlead]
    exact hmade
  have hnot : id ∉ ids' := by
    intro hid'
    -- Otherwise one errand would have returned both contexts.
    have hk : k = k' := (hids id hid).unique (hids' id hid') hdistinct
    subst hk
    have hboth := Option.some.inj (hreturned.symm.trans hreturned')
    cases hboth
    exact hne rfl
  exact ⟨hminted'.reveal_eq_none hmade' hnot,
    hminted'.reveal_eq_none (hmade'.append "_value") hnot⟩

/-- Runs are kept apart, in whatever order calls and changes take turns at a registry. A stretch of
work respects what there is: the runs to which the work is not addressed keep their live contexts,
and all contexts of such runs, live or not, stay exactly as they are; at most one context changes,
and every context keeps its run and its vault. When no work goes on, nothing changes. And if no id
has been drawn twice, no context reveals anything under a handle of another one, whenever and under
whichever run it was created. -/
theorem keeps_apart (settings : ResolverSettings) (backend : Backend) (draws : Draws)
    (moves : List Move) (m : Move) :
    let t := (start settings backend draws).run moves
    (∀ work, t.acting? m = some work → work.Respects t.world (t.move m).world) ∧
      (t.acting? m = none → t.world.Aside (t.move m).world) ∧
      (t.world.around.draws.Distinct → t.Apart) := by
  intro t
  obtain ⟨owner, hsound⟩ := (sound_start settings backend draws fun _ => 0).run moves
  -- A move that acts is a stretch of the work in question, unless it is idle.
  refine ⟨fun work hacts => ?_, fun hnone => ?_, hsound.apart⟩
  · cases hsound.moves m with
    | idle aside => exact .aside aside work
    | stretch acts fits follows unfinished world =>
      cases acts.symm.trans hacts
      rw [world]
      exact Work.respects_of_follows follows fits.found
  · -- A move that does not act is idle.
    cases hsound.moves m with
    | idle aside => exact aside
    | stretch acts => cases acts.symm.trans hnone

/-- Two runs, one of which is discarded and created again, use the same credential. The seed of its
one-time passwords is behind a handle of the first context, and not so for the other two. What is
defined for the one run does not touch the context of the other. -/
theorem keeps_apart_restart :
    let memory := Memory.empty.addPassword "cred_1" "acme" ⟨"u", "p", some "JBSWY3DP"⟩
    let declarations : Declarations := ⟨[], [], [], [.credential (.ofId "login" "cred_1")]⟩
    let create (run : String) : Move := .begin (.request (.create run ⟨"acme", none⟩ declarations))
    let change : Change := .addContext (.ofSource "name" ⟨.workflow, "customer"⟩)
    let moves : List Move := [create "a", create "b", .resume 0, .resume 1, .resume 1, .resume 0,
      .begin (.request (.discard "b")), .resume 2, create "b", .resume 3, .resume 3,
      .begin (.change "b" change), .resume 4]
    let t := (start .standard (Memory.backend memory) ⟨Uuid.random, 0⟩).run moves
    let t' := t.move (.resume 4)
    let c (n : Nat) : Context := t.world.contexts.getD n default
    let handle := "secret_00000000-0000-4000-8000-000000000005_totp"
    t.world.around.draws.Distinct ∧ t.world.contexts.map Context.run = ["b", "a", "b"] ∧
      (c 0).vault.reveal (.text (Vault.seedHandle handle)) = some "JBSWY3DP" ∧
      (c 1).vault.reveal (.text (Vault.seedHandle handle)) = none ∧
      (c 2).vault.reveal (.text (Vault.seedHandle handle)) = none ∧
      t'.world.contexts[1]? = some (c 1) ∧
      ((t'.world.contexts.getD 2 default).parameter? "name").isSome = true := by
  intro memory declarations create change moves
  have hkept := keeps_apart .standard (Memory.backend memory) ⟨Uuid.random, 0⟩ moves (.resume 4)
  have hfacts :
      let t := (start .standard (Memory.backend memory) ⟨Uuid.random, 0⟩).run moves
      let c (n : Nat) : Context := t.world.contexts.getD n default
      let handle := "secret_00000000-0000-4000-8000-000000000005_totp"
      t.world.around.draws.Distinct ∧ t.world.contexts.map Context.run = ["b", "a", "b"] ∧
        (c 0).vault.contains handle = true ∧
        (c 0).vault.reveal (.text (Vault.seedHandle handle)) = some "JBSWY3DP" ∧
        (c 1).run = "a" ∧
        (t.acting? (.resume 4)).map (fun work => work.addresses "a") = some false ∧
        (((t.move (.resume 4)).world.contexts.getD 2 default).parameter? "name").isSome = true := by
    decide +kernel
  -- From here on it does not matter how the errands have come to stand as they do.
  generalize (start .standard (Memory.backend memory) ⟨Uuid.random, 0⟩).run moves = t
    at hkept hfacts ⊢
  intro t t' c handle
  obtain ⟨hdistinct, hruns, hcontains, hseed, hrun, hspared, hdefined⟩ := hfacts
  obtain ⟨hrespects, -, hapart⟩ := hkept
  have hlength : t.world.contexts.length = 3 := by
    rw [← List.length_map Context.run, hruns]
    rfl
  have hthere : ∀ n < 3, t.world.contexts[n]? = some (c n) := by
    intro n hn
    show t.world.contexts[n]? = some (t.world.contexts.getD n default)
    rw [List.getD_eq_getElem?_getD, List.getElem?_eq_getElem (hlength ▸ hn), Option.getD_some]
  -- The handles of the first context are made of its own ids, so no other one knows them.
  have hreveal : ∀ n < 3, 0 ≠ n → (c n).vault.reveal (.text (Vault.seedHandle handle)) = none :=
    fun n hn hne => (hapart hdistinct 0 n _ _ (hthere 0 (by decide)) (hthere n hn) hne handle
      hcontains).2
  obtain ⟨work, hacts, hwork⟩ := Option.map_eq_some_iff.mp hspared
  have hcontext : t'.world.contexts[1]? = some (c 1) :=
    (hrespects work hacts).contexts 1 (c 1) (hthere 1 (by decide)) (hrun ▸ hwork)
  exact ⟨hdistinct, hruns, hseed, hreveal 1 (by decide) (by decide),
    hreveal 2 (by decide) (by decide), hcontext, hdefined⟩

end Crowd

end Registry

end RunParams
