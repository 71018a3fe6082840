import RunParams.Proofs.Registration.Arrangement

/-!
# The tiers of an order of registration

An order of registration is made up of three tiers of parameters, one after the other, of which the
last is arranged (`Parameter.InTiers`). Whatever is made up like this is its own order of
registration: a tier takes just its own parameters, and arranged parameters stay as they are when
they are arranged again. So putting an order in order again changes nothing
(`Parameter.registrationOrder_again`), and the first part of an order is the order of its own
parameters (`Parameter.registrationOrder_front`).
-/

namespace RunParams

namespace Parameter

variable {parameters ordered before after immediate direct chained : List Parameter}
  {p : Parameter}

/-! ## Arranged parameters -/

/-- Arranged parameters are arranged as they are. -/
theorem Arranged.arrangeIn_eq (h : Arranged ordered) {fuel : Nat} (hfuel : ordered.length ≤ fuel) :
    arrangeIn fuel ordered = .ok ordered := by
  induction ordered generalizing fuel with
  | nil =>
    cases fuel <;> rfl
  | cons first rest ih =>
    -- The first of an arranged list is ready, so it is taken first.
    cases fuel with
    | zero => cases hfuel
    | succ fuel =>
      have htake : takeReady (first :: rest) (first :: rest) = some (first, rest) := by
        unfold takeReady
        rw [if_pos h.1]
      rw [arrangeIn_of_some htake, ih h.2 (Nat.le_of_succ_le_succ hfuel)]
      rfl

/-- The first part of arranged parameters is arranged. -/
theorem Arranged.of_append (h : Arranged (before ++ after)) : Arranged before := by
  induction before with
  | nil => trivial
  | cons first rest ih =>
    obtain ⟨hready, hrest⟩ := h
    refine ⟨isReady_iff.mpr fun q hq => isReady_iff.mp hready q ?_, ih hrest⟩
    exact List.mem_append_left after hq

/-! ## Three tiers -/

/-- A tier of parameters that are all of one tier is all of them or none. -/
theorem ofTier_of_forall {tier : Tier} (h : ∀ p ∈ parameters, p.tier = tier) (other : Tier) :
    ofTier other parameters = if tier = other then parameters else [] := by
  by_cases hsame : tier = other
  · rw [if_pos hsame]
    exact List.filter_eq_self.mpr fun p hp => decide_eq_true (hsame ▸ h p hp)
  · rw [if_neg hsame]
    refine List.filter_eq_nil_iff.mpr fun p hp htier => hsame ?_
    rw [← h p hp]
    exact of_decide_eq_true htier

/-- Three tiers of parameters one after the other, the last of them arranged. -/
structure InTiers (immediate direct chained : List Parameter) : Prop where
  first : ∀ p ∈ immediate, p.tier = .immediate
  second : ∀ p ∈ direct, p.tier = .direct
  third : ∀ p ∈ chained, p.tier = .chained
  arranged : Arranged chained

/-- An order of registration is made up of three tiers. -/
theorem inTiers_of_registrationOrder (h : registrationOrder parameters = .ok ordered) :
    ∃ immediate direct chained, ordered = immediate ++ direct ++ chained ∧
      InTiers immediate direct chained := by
  obtain ⟨chained, hchained, rfl⟩ := registrationOrder_eq_ok.mp h
  obtain ⟨hperm, harranged⟩ := of_arrangeIn_ok (Nat.le_refl _) hchained
  have htier : ∀ {tier : Tier}, ∀ p ∈ ofTier tier parameters, p.tier = tier :=
    fun p hp => of_decide_eq_true (List.mem_filter.mp hp).2
  exact ⟨_, _, chained, rfl, htier, htier, fun p hp => htier p (hperm.subset hp), harranged⟩

/-- Three tiers are the order of their own parameters. -/
theorem InTiers.registrationOrder_eq (h : InTiers immediate direct chained) :
    registrationOrder (immediate ++ direct ++ chained) = .ok (immediate ++ direct ++ chained) := by
  have hsplit : ∀ tier, ofTier tier (immediate ++ direct ++ chained) =
      ofTier tier immediate ++ ofTier tier direct ++ ofTier tier chained := by
    intro tier
    unfold ofTier
    rw [List.filter_append, List.filter_append]
  have himmediate := hsplit .immediate
  have hdirect := hsplit .direct
  have hchained := hsplit .chained
  rw [ofTier_of_forall h.first, ofTier_of_forall h.second, ofTier_of_forall h.third]
    at himmediate hdirect hchained
  refine registrationOrder_eq_ok.mpr ⟨chained, ?_, ?_⟩
  · -- What is in the last tier is arranged already.
    rw [hchained]
    exact h.arranged.arrangeIn_eq (Nat.le_refl _)
  · rw [himmediate, hdirect]
    simp

/-- The first part of three tiers are three tiers. -/
theorem InTiers.front (h : InTiers immediate direct chained)
    (hsplit : immediate ++ direct ++ chained = before ++ after) :
    ∃ immediate direct chained, before = immediate ++ direct ++ chained ∧
      InTiers immediate direct chained := by
  -- The front may end in any of the three tiers.
  rcases List.append_eq_append_iff.mp hsplit with ⟨more, rfl, rfl⟩ | ⟨rest, hfirst, -⟩
  · -- It ends within the chained parameters.
    exact ⟨immediate, direct, more, rfl, h.first, h.second,
      fun p hp => h.third p (List.mem_append_left after hp), h.arranged.of_append⟩
  · rcases List.append_eq_append_iff.mp hfirst with ⟨more, rfl, rfl⟩ | ⟨rest, rfl, -⟩
    · exact ⟨immediate, more, [], (List.append_nil _).symm, h.first,
        fun p hp => h.second p (List.mem_append_left rest hp), nofun, trivial⟩
    · exact ⟨before, [], [], by rw [List.append_nil, List.append_nil],
        fun p hp => h.first p (List.mem_append_left rest hp), nofun, nofun, trivial⟩

/-- The first part of an order of registration is the order of its own parameters. -/
theorem registrationOrder_front (h : registrationOrder parameters = .ok (before ++ after)) :
    registrationOrder before = .ok before := by
  obtain ⟨immediate, direct, chained, hsplit, htiers⟩ := inTiers_of_registrationOrder h
  obtain ⟨_, _, _, rfl, hbefore⟩ := htiers.front hsplit.symm
  exact hbefore.registrationOrder_eq

/-- In an order of registration only parameters of the first tier come before one of it. -/
theorem immediate_of_before (h : registrationOrder parameters = .ok (before ++ p :: after))
    (hp : p.tier = .immediate) : ∀ q ∈ before, q.tier = .immediate := by
  obtain ⟨immediate, direct, chained, hsplit, htiers⟩ := inTiers_of_registrationOrder h
  have hlater : ∀ q ∈ direct ++ chained, q.tier ≠ .immediate := by
    intro q hq
    rcases List.mem_append.mp hq with hq | hq
    · rw [htiers.second q hq]; decide
    · rw [htiers.third q hq]; decide
  rw [List.append_assoc] at hsplit
  -- It is among the first ones, or after all of them.
  rcases List.append_eq_append_iff.mp hsplit with ⟨more, rfl, -⟩ | ⟨rest, rfl, hrest⟩
  · exact fun q hq => htiers.first q (List.mem_append_left more hq)
  · -- Otherwise the parameter itself would be in one of the later tiers.
    exact absurd hp (hlater p (hrest ▸ List.mem_append_right rest List.mem_cons_self))

end Parameter

end RunParams
