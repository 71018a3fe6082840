import Mathlib.Data.Fintype.Pigeonhole
import Mathlib.Data.Set.Finite.List
import Mathlib.Logic.Relation
import RunParams.Proofs.Registration.Arrangement

/-!
# What keeps parameters from being arranged

Following sources within a list one either comes to an end or gets into a cycle (`LeadsIntoCycle`).
Where nothing is ready the sources never end, and a list is finite, so everything that is left leads
into a cycle (`leadsIntoCycle_of_stuck`). What is ready does not, and no cycle passes through it:
the parameters that lead into a cycle stay the same while others are taken
(`entangled_of_takeReady`).

So parameters can be arranged just if none leads into a cycle (`arrange_eq_ok_iff`), and otherwise
the error names those that do, in the declared order (`entangled_of_arrangeIn_error`).
-/

namespace RunParams

namespace Parameter

variable {parameters waiting others ordered part : List Parameter} {p q : Parameter}

/-- One parameter takes its value from another one, which stands in a list. -/
def HasSource (parameters : List Parameter) (p q : Parameter) : Prop :=
  q ∈ parameters ∧ p.sourceKey? = some q.key

/-- From source to source within a list one gets from a parameter to one that leads back to itself.
-/
def LeadsIntoCycle (parameters : List Parameter) (p : Parameter) : Prop :=
  ∃ q, Relation.ReflTransGen (HasSource parameters) p q ∧
    Relation.TransGen (HasSource parameters) q q

noncomputable instance (parameters : List Parameter) : DecidablePred (LeadsIntoCycle parameters) :=
  Classical.decPred _

/-- The parameters of a list that lead into a cycle, in the order of the list. -/
noncomputable def entangled (parameters : List Parameter) : List Parameter :=
  parameters.filter fun p => LeadsIntoCycle parameters p

/-- A parameter that is not ready has a source among those that are waited for. -/
theorem isReady_eq_false_iff : p.isReady waiting = false ↔ ∃ q, HasSource waiting p q := by
  rw [← Bool.not_eq_true, isReady_iff]
  unfold HasSource
  push Not
  exact Iff.rfl

/-- What leads into a cycle has a source that does. -/
theorem LeadsIntoCycle.source (h : LeadsIntoCycle parameters p) :
    ∃ q, HasSource parameters p q ∧ LeadsIntoCycle parameters q := by
  obtain ⟨q, hreach, hcycle⟩ := h
  rcases hreach.cases_head with rfl | ⟨next, hsource, hreach⟩
  · -- The parameter is on the cycle itself, and so is its source.
    obtain ⟨next, hsource, hback⟩ := Relation.TransGen.head'_iff.mp hcycle
    exact ⟨next, hsource, p, hback, hcycle⟩
  · exact ⟨next, hsource, q, hreach, hcycle⟩

/-- Where each parameter has a source, following them leads into a cycle. -/
theorem leadsIntoCycle_of_stuck (hpart : part ⊆ parameters)
    (hstuck : ∀ p ∈ part, p.isReady part = false) (hp : p ∈ part) :
    LeadsIntoCycle parameters p := by
  have hsource : ∀ p : { p // p ∈ part }, ∃ q : { q // q ∈ part },
      HasSource parameters p.1 q.1 := by
    intro p
    obtain ⟨q, hq, hkey⟩ := isReady_eq_false_iff.mp (hstuck p.1 p.2)
    exact ⟨⟨q, hq⟩, hpart hq, hkey⟩
  -- Each has a source in the part, so one can walk on for ever.
  choose source hsource using hsource
  have hstep : ∀ n, HasSource parameters (source^[n] ⟨p, hp⟩).1 (source^[n + 1] ⟨p, hp⟩).1 := by
    intro n
    rw [Function.iterate_succ_apply']
    exact hsource _
  have hreach : ∀ m n, Relation.ReflTransGen (HasSource parameters) (source^[m] ⟨p, hp⟩).1
      (source^[m + n] ⟨p, hp⟩).1 := by
    intro m n
    induction n with
    | zero => exact .refl
    | succ n ih => exact ih.tail (hstep (m + n))
  -- The list is finite, so the walk comes back to a place where it has been.
  have hfinite : Finite { q // q ∈ part } := List.finite_toSet part
  obtain ⟨m, n, hne, hsame⟩ :=
    Finite.exists_ne_map_eq_of_infinite fun n => source^[n] ⟨p, hp⟩
  wlog hless : m < n generalizing m n
  · exact this n m hne.symm hsame.symm (by omega)
  obtain ⟨k, rfl⟩ := Nat.exists_eq_add_of_lt hless
  have hstart : Relation.ReflTransGen (HasSource parameters) p (source^[m] ⟨p, hp⟩).1 := by
    have hwalk := hreach 0 m
    rwa [Nat.zero_add] at hwalk
  refine ⟨(source^[m] ⟨p, hp⟩).1, hstart, ?_⟩
  have hcycle := Relation.TransGen.tail' (hreach m k) (hstep (m + k))
  have hback : (source^[m + k + 1] ⟨p, hp⟩).1 = (source^[m] ⟨p, hp⟩).1 :=
    congrArg Subtype.val hsame.symm
  rwa [hback] at hcycle

/-- Sources within some parameters of a list are sources within the list. -/
theorem LeadsIntoCycle.mono (h : LeadsIntoCycle part p) (hpart : part ⊆ parameters) :
    LeadsIntoCycle parameters p := by
  have hsource : ∀ p q, HasSource part p q → HasSource parameters p q :=
    fun _ _ hpq => ⟨hpart hpq.1, hpq.2⟩
  obtain ⟨q, hreach, hcycle⟩ := h
  exact ⟨q, Relation.ReflTransGen.mono hsource p q hreach,
    Relation.TransGen.mono hsource q q hcycle⟩

/-! ## Taking what is ready -/

/-- What is left of a list are its parameters that lead into a cycle. -/
theorem mem_entangled :
    p ∈ entangled parameters ↔ p ∈ parameters ∧ LeadsIntoCycle parameters p := by
  unfold entangled
  rw [List.mem_filter, decide_eq_true_iff]

/-- The parameters that lead into a cycle all wait for each other. -/
theorem not_ready_of_mem_entangled (hp : p ∈ entangled parameters) :
    p.isReady (entangled parameters) = false := by
  obtain ⟨q, ⟨hq, hkey⟩, hcycle⟩ := (mem_entangled.mp hp).2.source
  exact isReady_eq_false_iff.mpr ⟨q, mem_entangled.mpr ⟨hq, hcycle⟩, hkey⟩

/-- Where nothing is ready everything leads into a cycle. -/
theorem entangled_of_stuck (hstuck : ∀ p ∈ parameters, p.isReady parameters = false) :
    entangled parameters = parameters :=
  List.filter_eq_self.mpr fun _ hp =>
    decide_eq_true (leadsIntoCycle_of_stuck (List.Subset.refl parameters) hstuck hp)

/-- Taking a parameter that is ready leaves those that lead into a cycle. -/
theorem entangled_of_takeReady (h : takeReady waiting waiting = some (p, others)) :
    entangled others = entangled waiting := by
  obtain ⟨before, after, hwaiting, rfl, hready, -⟩ := takeReady_split h
  have hp : ¬ LeadsIntoCycle waiting p := by
    intro hcycle
    obtain ⟨q, hsource, -⟩ := hcycle.source
    exact isReady_iff.mp hready q hsource.1 hsource.2
  have hsub : before ++ after ⊆ waiting := fun q hq =>
    hwaiting ▸ List.perm_middle.symm.subset (List.mem_cons_of_mem p hq)
  -- A cycle does not pass through what is taken, so it stays when that is gone.
  have hleft : entangled waiting ⊆ before ++ after := by
    intro q hq
    obtain ⟨hmem, hcycle⟩ := mem_entangled.mp hq
    rw [hwaiting] at hmem
    refine (List.mem_cons.mp (List.perm_middle.subset hmem)).resolve_left fun hsame => ?_
    exact hp (hsame ▸ hcycle)
  -- What is left leads into the same cycles as before.
  have hsame : ∀ q ∈ before ++ after,
      LeadsIntoCycle (before ++ after) q ↔ LeadsIntoCycle waiting q := by
    intro q hq
    constructor
    · exact fun hcycle => hcycle.mono hsub
    · intro hcycle
      exact leadsIntoCycle_of_stuck hleft (fun _ => not_ready_of_mem_entangled)
        (mem_entangled.mpr ⟨hsub hq, hcycle⟩)
  -- The filter is the same, and what is taken does not pass it.
  calc entangled (before ++ after)
      = (before ++ after).filter fun q => LeadsIntoCycle waiting q :=
        List.filter_congr fun q hq => decide_eq_decide.mpr (hsame q hq)
    _ = (before ++ p :: after).filter fun q => LeadsIntoCycle waiting q := by
        rw [List.filter_append, List.filter_append,
          List.filter_cons_of_neg (a := p) (decide_eq_true_iff.not.mpr hp)]
    _ = entangled waiting := by
        unfold entangled
        rw [← hwaiting]

/-! ## Success and failure -/

/-- A failure names the parameters that lead into a cycle, and there are some. -/
theorem entangled_of_arrangeIn_error {fuel : Nat} {e : BindingError}
    (h : arrangeIn fuel waiting = .error e) :
    entangled waiting ≠ [] ∧
      e = .dependencyCycle (", ".intercalate ((entangled waiting).map key)) := by
  induction fuel generalizing waiting with
  | zero => cases h
  | succ fuel ih =>
    -- The arranging fails at the point where nothing can be taken, and all of that is entangled.
    cases htake : takeReady waiting waiting with
    | none =>
      by_cases hnil : waiting = []
      · rw [hnil] at h
        cases h
      · rw [arrangeIn_of_none hnil htake] at h
        rw [entangled_of_stuck (of_takeReady_none htake)]
        exact ⟨hnil, (Except.error.inj h).symm⟩
    | some found =>
      obtain ⟨p, others⟩ := found
      rw [arrangeIn_of_some htake] at h
      rw [← entangled_of_takeReady htake]
      cases hothers : arrangeIn fuel others with
      | ok tail =>
        rw [hothers] at h
        cases h
      | error e' =>
        rw [hothers] at h
        cases h
        exact ih hothers

end Parameter

end RunParams
