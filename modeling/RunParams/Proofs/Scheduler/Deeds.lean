import RunParams.Proofs.Scheduler.Turns

/-!
# What deeds tell

The deeds of the moves so far, the latest first, tell which run with an id was started last
(`lastStarted`), which outcome of it was stored last (`StoredLast`) and which outcome is there to be
collected (`standing`): the one that was stored last, unless a wait has returned since.

What a wait may return is told by the deeds before it (`Lawful`). A wait that returns what stands
(`Agrees`) does as it may (`lawful_collected`), so nothing that is stored is lost. Between two waits
that return an outcome of a run, the outcome of the later one is stored (`StoredLast.mem_between`),
so nothing is returned twice.
-/

namespace RunParams.Chronicle

/-- The task of the run with an id that was started last. -/
def lastStarted (run : String) : List Deed → Option Nat
  | [] => none
  | .started task started :: earlier =>
    if run = started then some task else lastStarted run earlier
  | _ :: earlier => lastStarted run earlier

/-- A task has stored an outcome of a run, and since then no other one was stored for it. -/
def StoredLast (run : String) (task : Nat) (outcome : Outcome) (since deeds : List Deed) : Prop :=
  (∃ earlier, deeds = since ++ .stored task run outcome :: earlier) ∧
    ∀ other result, .stored other run result ∉ since

/-- No wait has returned an outcome of a run. -/
def Uncollected (run : String) (deeds : List Deed) : Prop :=
  ∀ call outcome, .collected call run (some outcome) ∉ deeds

/-- A wait for a run was called when the run had been started. -/
def CalledAfterStart (call : Nat) (run : String) (deeds : List Deed) : Prop :=
  ∃ since earlier task, deeds = since ++ .awaited call run :: earlier ∧
    .started task run ∈ earlier

/-- What is demanded of a deed after some earlier ones. -/
def Lawful (earlier : List Deed) : Deed → Prop
  /- An outcome that a wait returns is the one that was stored last, and no wait has returned it. -/
  | .collected _ run (some outcome) =>
    ∃ task since, StoredLast run task outcome since earlier ∧ Uncollected run since
  /- A wait that was called after a start returns nothing only if another one has returned what was
  stored last. -/
  | .collected call run none => CalledAfterStart call run earlier →
    ∃ task outcome since other, StoredLast run task outcome since earlier ∧ other ≠ call ∧
      .collected other run (some outcome) ∈ since
  | _ => True

/-- Every deed is lawful after the earlier ones. -/
def Coherent : List Deed → Prop
  | [] => True
  | d :: earlier => Lawful earlier d ∧ Coherent earlier

/-- The outcome of a run that was stored last, unless a wait has returned since. -/
def standing (run : String) : List Deed → Option Outcome
  | [] => none
  | .stored _ stored outcome :: earlier =>
    if run = stored then some outcome else standing run earlier
  | .collected _ collected _ :: earlier =>
    if run = collected then none else standing run earlier
  | _ :: earlier => standing run earlier

/-- Every wait has returned what stood. -/
def Agrees : List Deed → Prop
  | [] => True
  | d :: earlier => (∀ call run result, d = .collected call run result →
      result = standing run earlier) ∧ Agrees earlier

variable {run : String} {task number : Nat} {outcome : Outcome} {since deeds : List Deed} {d : Deed}

/-! ## Starts and calls -/

/-- A start now, or an earlier one, is the last. -/
theorem lastStarted_cons (h : lastStarted run (d :: deeds) = some number) :
    d = .started number run ∨ lastStarted run deeds = some number := by
  cases d with
  | started task started =>
    rw [lastStarted] at h
    by_cases hrun : run = started
    · rw [if_pos hrun] at h
      cases h
      exact .inl (by rw [hrun])
    · rw [if_neg hrun] at h
      exact .inr h
  | finished _ _ | stored _ _ _ | awaited _ _ | collected _ _ _ => exact .inr h

/-- Some start is the last when there was one. -/
theorem exists_lastStarted (h : .started task run ∈ deeds) :
    ∃ number, lastStarted run deeds = some number := by
  induction deeds with
  | nil => cases h
  | cons d deeds ih =>
    cases d with
    | started task' started =>
      rw [lastStarted]
      by_cases hrun : run = started
      · exact ⟨task', if_pos hrun⟩
      · rw [if_neg hrun]
        refine ih ((List.mem_cons.mp h).resolve_left fun hsame => ?_)
        cases hsame
        exact hrun rfl
    | finished _ _ | stored _ _ _ | awaited _ _ | collected _ _ _ =>
      exact ih ((List.mem_cons.mp h).resolve_left nofun)

/-- Who had not called after a start before, calls now. -/
theorem CalledAfterStart.of_cons {call : Nat} (h : CalledAfterStart call run (d :: deeds)) :
    d = .awaited call run ∨ CalledAfterStart call run deeds := by
  obtain ⟨since, earlier, task, hdeeds, hstarted⟩ := h
  cases since with
  | nil => exact .inl (List.cons.inj hdeeds).1
  | cons _ since => exact .inr ⟨since, earlier, task, (List.cons.inj hdeeds).2, hstarted⟩

/-- A call after a start comes after that start. -/
theorem CalledAfterStart.exists_started {call : Nat} (h : CalledAfterStart call run deeds) :
    ∃ task, .started task run ∈ deeds := by
  obtain ⟨since, earlier, task, rfl, hstarted⟩ := h
  exact ⟨task, List.mem_append_right since (List.mem_cons_of_mem _ hstarted)⟩

/-! ## What was stored last -/

/-- What was stored last remains so when something else is done. -/
theorem StoredLast.cons (h : StoredLast run task outcome since deeds)
    (hd : ∀ other result, d ≠ .stored other run result) :
    StoredLast run task outcome (d :: since) (d :: deeds) := by
  obtain ⟨⟨earlier, rfl⟩, hsince⟩ := h
  refine ⟨⟨earlier, rfl⟩, fun other result hmem => ?_⟩
  rcases List.mem_cons.mp hmem with hsame | hmem
  · exact hd other result hsame.symm
  · exact hsince other result hmem

/-- What is stored now is stored last. -/
theorem storedLast_now (run : String) (task : Nat) (outcome : Outcome) (deeds : List Deed) :
    StoredLast run task outcome [] (.stored task run outcome :: deeds) :=
  ⟨⟨deeds, rfl⟩, fun _ _ => List.not_mem_nil⟩

/-- Something is stored last when something is stored. -/
theorem StoredLast.exists_cons (h : StoredLast run task outcome since deeds) (d : Deed) :
    ∃ task outcome since, StoredLast run task outcome since (d :: deeds) := by
  by_cases hd : ∃ other result, d = .stored other run result
  · obtain ⟨other, result, rfl⟩ := hd
    exact ⟨other, result, [], storedLast_now run other result deeds⟩
  · exact ⟨task, outcome, d :: since, h.cons fun other result hsame => hd ⟨other, result, hsame⟩⟩

/-- What stands was stored last, and no wait has returned since. -/
theorem storedLast_of_standing (h : standing run deeds = some outcome) :
    ∃ task since, StoredLast run task outcome since deeds ∧
      ∀ call result, .collected call run result ∉ since := by
  induction deeds with
  | nil => cases h
  | cons d deeds ih =>
    -- A deed that neither stores nor collects for the run leaves what stands.
    have hother : (∀ other result, d ≠ .stored other run result) →
        (∀ call result, d ≠ .collected call run result) → standing run deeds = some outcome →
        ∃ task since, StoredLast run task outcome since (d :: deeds) ∧
          ∀ call result, .collected call run result ∉ since := by
      intro hstored hcollected hstands
      obtain ⟨task, since, hlast, hnone⟩ := ih hstands
      refine ⟨task, d :: since, hlast.cons hstored, fun call result hmem => ?_⟩
      rcases List.mem_cons.mp hmem with hsame | hmem
      · exact hcollected call result hsame.symm
      · exact hnone call result hmem
    cases d with
    | stored task' stored outcome' =>
      rw [standing] at h
      by_cases hrun : run = stored
      · rw [if_pos hrun] at h
        cases h
        subst hrun
        exact ⟨task', [], storedLast_now run task' outcome deeds, fun _ _ => List.not_mem_nil⟩
      · rw [if_neg hrun] at h
        refine hother (fun _ _ hd => ?_) (fun _ _ => nofun) h
        cases hd
        exact hrun rfl
    | collected call collected result =>
      rw [standing] at h
      by_cases hrun : run = collected
      · rw [if_pos hrun] at h
        cases h
      · rw [if_neg hrun] at h
        refine hother (fun _ _ => nofun) (fun _ _ hd => ?_) h
        cases hd
        exact hrun rfl
    | started _ _ | finished _ _ | awaited _ _ =>
      exact hother (fun _ _ => nofun) (fun _ _ => nofun) h

/-- What was stored last stands, or a wait has returned it. -/
theorem StoredLast.standing_or_collected (h : StoredLast run task outcome since deeds)
    (hagrees : Agrees deeds) :
    standing run deeds = some outcome ∨ ∃ call, .collected call run (some outcome) ∈ since := by
  induction since generalizing deeds with
  | nil =>
    obtain ⟨⟨earlier, rfl⟩, -⟩ := h
    exact .inl (if_pos rfl)
  | cons d since ih =>
    obtain ⟨⟨earlier, rfl⟩, hsince⟩ := h
    obtain ⟨hd, hrest⟩ := hagrees
    have hbefore :
        StoredLast run task outcome since (since ++ .stored task run outcome :: earlier) :=
      ⟨⟨earlier, rfl⟩, fun other result hmem => hsince other result (List.mem_cons_of_mem d hmem)⟩
    rcases ih hbefore hrest with hstands | ⟨call, hcall⟩
    · rw [List.cons_append]
      cases d with
      | stored task' stored outcome' =>
        have hrun : run ≠ stored := by
          rintro rfl
          exact hsince task' outcome' List.mem_cons_self
        exact .inl ((if_neg hrun).trans hstands)
      | collected call collected result =>
        by_cases hrun : run = collected
        · subst hrun
          have hresult : result = some outcome := (hd call run result rfl).trans hstands
          rw [hresult]
          exact .inr ⟨call, List.mem_cons_self⟩
        · exact .inl ((if_neg hrun).trans hstands)
      | started _ _ | finished _ _ | awaited _ _ => exact .inl hstands
    · exact .inr ⟨call, List.mem_cons_of_mem d hcall⟩

/-! ## What a wait may return -/

/-- What a wait returns, when it returns what stands, is lawful. -/
theorem lawful_collected (hagrees : Agrees deeds)
    (hcollecting : CalledAfterStart number run deeds →
      ∃ task outcome since, StoredLast run task outcome since deeds)
    (hfirst : ∀ result, .collected number run result ∉ deeds) :
    Lawful deeds (.collected number run (standing run deeds)) := by
  cases hstanding : standing run deeds with
  | some outcome =>
    obtain ⟨task, since, hlast, huncollected⟩ := storedLast_of_standing hstanding
    exact ⟨task, since, hlast, fun call outcome => huncollected call (some outcome)⟩
  | none =>
    intro hafter
    obtain ⟨task, outcome, since, hlast⟩ := hcollecting hafter
    rcases hlast.standing_or_collected hagrees with hstands | ⟨other, hother⟩
    · rw [hstanding] at hstands
      cases hstands
    · refine ⟨task, outcome, since, other, hlast, ?_, hother⟩
      rintro rfl
      obtain ⟨⟨earlier, rfl⟩, -⟩ := hlast
      exact hfirst (some outcome) (List.mem_append_left _ hother)

/-- Every deed has been lawful after the earlier ones. -/
theorem Coherent.lawful {later earlier : List Deed} (h : Coherent (later ++ d :: earlier)) :
    Lawful earlier d := by
  induction later with
  | nil => exact h.1
  | cons _ later ih => exact ih h.2

/-- What is stored last was stored after an outcome was returned, if it is returned as well. -/
theorem StoredLast.mem_between {between earlier : List Deed} {call : Nat}
    {result : Option Outcome}
    (h : StoredLast run task outcome since (between ++ .collected call run result :: earlier))
    (hcollected : .collected call run result ∉ since) : .stored task run outcome ∈ between := by
  induction between generalizing since with
  | nil =>
    obtain ⟨⟨rest, hsplit⟩, -⟩ := h
    cases since with
    | nil => cases (List.cons.inj hsplit).1
    | cons d since =>
      rw [(List.cons.inj hsplit).1] at hcollected
      exact absurd List.mem_cons_self hcollected
  | cons d between ih =>
    obtain ⟨⟨rest, hsplit⟩, hsince⟩ := h
    cases since with
    | nil =>
      rw [(List.cons.inj hsplit).1]
      exact List.mem_cons_self
    | cons d' since =>
      refine List.mem_cons_of_mem d (ih ⟨⟨rest, (List.cons.inj hsplit).2⟩, ?_⟩ ?_)
      · exact fun other result hmem => hsince other result (List.mem_cons_of_mem d' hmem)
      · exact fun hmem => hcollected (List.mem_cons_of_mem d' hmem)

end RunParams.Chronicle
