import Mathlib.Data.List.Perm.Basic
import RunParams.Parameter.Order

/-!
# The order of registration, whatever the order of declaration

`Parameter.arrange` picks, again and again, the first parameter whose source is not left. What it
picks depends on the declared order, but whether it gets to the end does not: it fails exactly when
some of the parameters wait for each other (`Stuck`), and an arranged list has no stuck part
(`Arranged.not_stuck`). So `registrationOrder_of_subset` holds: when a list has an order of
registration, so does any other list of the same parameters or of some of them, whatever its order
and its repetitions.

An order of registration is a permutation of the declared list (`registrationOrder_perm`) in which
no chained parameter comes before its source (`registrationOrder_inOrder`).
-/

namespace RunParams

namespace Parameter

variable {parameters waiting others ordered : List Parameter}

/-- A parameter waits for none of some parameters when its source is the key of none of them. -/
theorem isReady_iff {p : Parameter} :
    p.isReady waiting = true ↔ ∀ q ∈ waiting, p.sourceKey? ≠ some q.key := by
  unfold isReady
  -- Without a source key there is nothing to wait for.
  cases hkey : p.sourceKey? with
  | none => simp
  | some key =>
    simp only [Bool.not_eq_true', List.contains_eq_mem, decide_eq_false_iff_not, List.mem_map]
    constructor
    · intro habsent q hq hsame
      exact habsent ⟨q, hq, (Option.some.inj hsame).symm⟩
    · rintro hready ⟨q, hq, rfl⟩
      exact hready q hq rfl

/-- The parameter that is taken is the first that is ready, and the others stay as they are. -/
theorem takeReady_split {p : Parameter} (h : takeReady waiting parameters = some (p, others)) :
    ∃ before after, parameters = before ++ p :: after ∧ others = before ++ after ∧
      p.isReady waiting = true ∧ ∀ q ∈ before, q.isReady waiting = false := by
  induction parameters generalizing others with
  | nil => cases h
  | cons first rest ih =>
    unfold takeReady at h
    -- The first that is ready is taken; until then they are passed over.
    by_cases hready : first.isReady waiting = true
    · rw [if_pos hready] at h
      cases h
      exact ⟨[], rest, rfl, rfl, hready, fun q hq => absurd hq List.not_mem_nil⟩
    · rw [if_neg hready] at h
      obtain ⟨⟨found, left⟩, hfound, hpair⟩ := Option.map_eq_some_iff.mp h
      cases hpair
      -- One that is passed over stays in front of the others.
      obtain ⟨before, after, hrest, hleft, hp, hbefore⟩ := ih hfound
      refine ⟨first :: before, after, congrArg (first :: ·) hrest, congrArg (first :: ·) hleft, hp,
        fun q hq => ?_⟩
      rcases List.mem_cons.mp hq with rfl | hq
      · exact Bool.eq_false_iff.mpr hready
      · exact hbefore q hq

/-- The parameter that is taken is ready, and the others are the rest of the list. -/
theorem of_takeReady_some {p : Parameter} (h : takeReady waiting parameters = some (p, others)) :
    p.isReady waiting = true ∧ parameters.Perm (p :: others) := by
  obtain ⟨before, after, rfl, rfl, hready, -⟩ := takeReady_split h
  exact ⟨hready, List.perm_middle⟩

/-- When none is taken, all of them wait. -/
theorem of_takeReady_none (h : takeReady waiting parameters = none) :
    ∀ p ∈ parameters, p.isReady waiting = false := by
  induction parameters with
  | nil => exact fun p hp => absurd hp List.not_mem_nil
  | cons first rest ih =>
    unfold takeReady at h
    by_cases hready : first.isReady waiting = true
    · rw [if_pos hready] at h
      cases h
    · rw [if_neg hready, Option.map_eq_none_iff] at h
      intro p hp
      rcases List.mem_cons.mp hp with rfl | hp
      · exact Bool.eq_false_iff.mpr hready
      · exact ih h p hp

/-- One that is taken comes first, and then the others arranged. -/
theorem arrangeIn_of_some {fuel : Nat} {p : Parameter}
    (h : takeReady waiting waiting = some (p, others)) :
    arrangeIn (fuel + 1) waiting = (p :: ·) <$> arrangeIn fuel others := by
  have hne : waiting ≠ [] := by
    rintro rfl
    cases h
  rw [arrangeIn, h]
  exact hne

/-- When none can be taken, all that are left are named. -/
theorem arrangeIn_of_none {fuel : Nat} (hne : waiting ≠ [])
    (h : takeReady waiting waiting = none) :
    arrangeIn (fuel + 1) waiting =
      .error (.dependencyCycle (", ".intercalate (waiting.map key))) := by
  rw [arrangeIn, h]
  exact hne

/-- Each parameter comes after its source: it waits neither for itself nor for a later one. -/
def Arranged : List Parameter → Prop
  | [] => True
  | p :: rest => p.isReady (p :: rest) = true ∧ Arranged rest

/-- Some parameters, at least one, that all wait for each other. -/
def Stuck (parameters : List Parameter) : Prop :=
  parameters ≠ [] ∧ ∀ p ∈ parameters, p.isReady parameters = false

/-- No part of an arranged list is stuck. -/
theorem Arranged.not_stuck (h : Arranged ordered) (hpart : parameters ⊆ ordered) :
    ¬ Stuck parameters := by
  induction ordered with
  | nil => exact fun hstuck => hstuck.1 (List.subset_nil.mp hpart)
  | cons first rest ih =>
    obtain ⟨hready, hrest⟩ := h
    intro hstuck
    -- The first of the arranged list waits for none of it, so it is not in a stuck part.
    have hfirst : first ∉ parameters := by
      intro hmem
      have hready' : first.isReady parameters = true :=
        isReady_iff.mpr fun q hq => isReady_iff.mp hready q (hpart hq)
      rw [hstuck.2 first hmem] at hready'
      exact Bool.false_ne_true hready'
    have hpart' : parameters ⊆ rest := by
      intro p hp
      rcases List.mem_cons.mp (hpart hp) with rfl | hp'
      · exact absurd hp hfirst
      · exact hp'
    exact ih hrest hpart' hstuck

/-- With enough fuel the result is an arranged permutation. -/
theorem of_arrangeIn_ok {fuel : Nat} (hfuel : waiting.length ≤ fuel)
    (h : arrangeIn fuel waiting = .ok ordered) : ordered.Perm waiting ∧ Arranged ordered := by
  induction fuel generalizing waiting ordered with
  | zero =>
    have hnil : waiting = [] := List.length_eq_zero_iff.mp (by omega)
    subst hnil
    cases h
    exact ⟨List.Perm.refl _, trivial⟩
  | succ fuel ih =>
    -- If nothing can be taken the list is empty, or the arranging fails.
    cases htake : takeReady waiting waiting with
    | none =>
      by_cases hnil : waiting = []
      · subst hnil
        cases h
        exact ⟨List.Perm.refl _, trivial⟩
      · rw [arrangeIn_of_none hnil htake] at h
        cases h
    | some found =>
      -- What is taken first is ready among all of them, so also among those that come after it.
      obtain ⟨p, others⟩ := found
      obtain ⟨hready, hperm⟩ := of_takeReady_some htake
      have hlength := length_of_takeReady htake
      rw [arrangeIn_of_some htake] at h
      -- It succeeds just when the rest can be arranged.
      cases hothers : arrangeIn fuel others with
      | error e =>
        rw [hothers] at h
        cases h
      | ok tail =>
        rw [hothers] at h
        cases h
        have hless : others.length ≤ fuel := by omega
        obtain ⟨htail, harranged⟩ := ih hless hothers
        have hall : (p :: tail).Perm waiting := (htail.cons p).trans hperm.symm
        refine ⟨hall, ?_, harranged⟩
        exact isReady_iff.mpr fun q hq => isReady_iff.mp hready q (hall.subset hq)

/-- A failure shows a stuck part. -/
theorem of_arrangeIn_error {fuel : Nat} {e : BindingError}
    (h : arrangeIn fuel waiting = .error e) : ∃ part, part ⊆ waiting ∧ Stuck part := by
  induction fuel generalizing waiting e with
  | zero => cases h
  | succ fuel ih =>
    cases htake : takeReady waiting waiting with
    -- As long as something can be taken, what is stuck is among the rest.
    | none =>
      by_cases hnil : waiting = []
      · subst hnil
        cases h
      · -- Nothing can be taken: all that is left is stuck.
        exact ⟨waiting, List.Subset.refl _, hnil, of_takeReady_none htake⟩
    | some found =>
      obtain ⟨p, others⟩ := found
      have hperm := (of_takeReady_some htake).2
      rw [arrangeIn_of_some htake] at h
      cases hothers : arrangeIn fuel others with
      | ok tail =>
        rw [hothers] at h
        cases h
      | error e' =>
        obtain ⟨part, hpart, hstuck⟩ := ih hothers
        refine ⟨part, fun q hq => ?_, hstuck⟩
        have hq' : q ∈ p :: others := List.mem_cons_of_mem p (hpart hq)
        exact hperm.symm.subset hq'

/-- When some parameters can be arranged, so can any list of some of them, in whatever order it has
them and however often. -/
theorem arrange_of_subset (hsubset : others ⊆ waiting) (h : arrange waiting = .ok ordered) :
    ∃ ordered', arrange others = .ok ordered' := by
  obtain ⟨hordered, harranged⟩ := of_arrangeIn_ok (Nat.le_refl _) h
  cases hothers : arrange others with
  | ok ordered' => exact ⟨ordered', rfl⟩
  | error e =>
    -- What is stuck in the other list would be a stuck part of the arranged one.
    obtain ⟨part, hpart, hstuck⟩ := of_arrangeIn_error hothers
    have hpart' : part ⊆ ordered := by
      intro p hp
      have hp' : p ∈ waiting := hsubset (hpart hp)
      exact hordered.symm.subset hp'
    exact absurd hstuck (harranged.not_stuck hpart')

/-- An order of registration is the three tiers, the last of them arranged. -/
theorem registrationOrder_eq_ok :
    registrationOrder parameters = .ok ordered ↔
      ∃ chained, arrange (ofTier .chained parameters) = .ok chained ∧
        ordered = ofTier .immediate parameters ++ ofTier .direct parameters ++ chained := by
  unfold registrationOrder
  cases arrange (ofTier .chained parameters) with
  | error e => simp [bind, Except.bind]
  | ok chained => simp [bind, Except.bind, pure, Except.pure, eq_comm]

/-- When there is an order of registration for some parameters, there is one for any list of some of
them. -/
theorem registrationOrder_of_subset (hsubset : others ⊆ parameters)
    (h : registrationOrder parameters = .ok ordered) :
    ∃ ordered', registrationOrder others = .ok ordered' := by
  obtain ⟨chained, hchained, -⟩ := registrationOrder_eq_ok.mp h
  obtain ⟨chained', hchained'⟩ := arrange_of_subset (List.filter_subset _ hsubset) hchained
  exact ⟨_, registrationOrder_eq_ok.mpr ⟨chained', hchained', rfl⟩⟩

/-- Whether there is an order of registration does not depend on the order of declaration. -/
theorem registrationOrder_of_perm (hperm : parameters.Perm others)
    (h : registrationOrder parameters = .ok ordered) :
    ∃ ordered', registrationOrder others = .ok ordered' :=
  registrationOrder_of_subset hperm.symm.subset h

/-- The three tiers make up the list. -/
theorem perm_ofTier (parameters : List Parameter) :
    (ofTier .immediate parameters ++ ofTier .direct parameters ++ ofTier .chained parameters).Perm
      parameters := by
  induction parameters with
  | nil => exact List.Perm.refl _
  | cons p rest ih =>
    unfold ofTier at ih ⊢
    -- Each parameter is in one of the three tiers, and moves in front of the later ones.
    cases htier : p.tier with
    | immediate => simpa [htier] using ih
    | direct =>
      simp only [List.filter_cons, htier, reduceCtorEq, decide_false, decide_true, if_true,
        Bool.false_eq_true, if_false, List.append_assoc, List.cons_append] at ih ⊢
      exact List.perm_middle.trans (ih.cons p)
    | chained =>
      simp only [List.filter_cons, htier, reduceCtorEq, decide_false, decide_true, if_true,
        Bool.false_eq_true, if_false] at ih ⊢
      exact List.perm_middle.trans (ih.cons p)

/-- An order of registration is a permutation of the declared list. -/
theorem registrationOrder_perm (h : registrationOrder parameters = .ok ordered) :
    ordered.Perm parameters := by
  obtain ⟨chained, hchained, rfl⟩ := registrationOrder_eq_ok.mp h
  obtain ⟨hperm, -⟩ := of_arrangeIn_ok (Nat.le_refl _) hchained
  have htiers : (ofTier .immediate parameters ++ ofTier .direct parameters ++ chained).Perm
      (ofTier .immediate parameters ++ ofTier .direct parameters ++ ofTier .chained parameters) :=
    hperm.append_left _
  exact htiers.trans (perm_ofTier parameters)

/-- A parameter does not wait, for one that is registered with it or after it: it is not chained,
or the other one is not its source. -/
def NotBefore (p q : Parameter) : Prop := p.tier = .chained → p.sourceKey? ≠ some q.key

/-- No chained parameter comes before its source, and none is its own source. -/
structure InOrder (ordered : List Parameter) : Prop where
  later : ordered.Pairwise NotBefore
  itself : ∀ p ∈ ordered, NotBefore p p

/-- Arranged parameters are in order. -/
theorem Arranged.inOrder (h : Arranged ordered) : InOrder ordered := by
  induction ordered with
  | nil => exact ⟨List.Pairwise.nil, fun p hp => absurd hp List.not_mem_nil⟩
  | cons first rest ih =>
    obtain ⟨hready, hrest⟩ := h
    obtain ⟨hlater, hitself⟩ := ih hrest
    have hfirst : ∀ q ∈ first :: rest, NotBefore first q :=
      fun q hq _ => isReady_iff.mp hready q hq
    constructor
    · -- The first waits for none of the others, and these are in order among themselves.
      refine List.pairwise_cons.mpr ⟨fun q hq => ?_, hlater⟩
      exact hfirst q (List.mem_cons_of_mem first hq)
    · intro p hp
      rcases List.mem_cons.mp hp with rfl | hp
      · exact hfirst p List.mem_cons_self
      · exact hitself p hp

/-- In an order of registration no chained parameter comes before its source. -/
theorem registrationOrder_inOrder (h : registrationOrder parameters = .ok ordered) :
    InOrder ordered := by
  obtain ⟨chained, hchained, rfl⟩ := registrationOrder_eq_ok.mp h
  obtain ⟨hlater, hitself⟩ := (of_arrangeIn_ok (Nat.le_refl _) hchained).2.inOrder
  have hunchained : ∀ p ∈ ofTier .immediate parameters ++ ofTier .direct parameters,
      p.tier ≠ .chained := by
    intro p hp
    rcases List.mem_append.mp hp with hp | hp
    · rw [of_decide_eq_true (List.mem_filter.mp hp).2]; decide
    · rw [of_decide_eq_true (List.mem_filter.mp hp).2]; decide
  -- Only within the last tier is there anything to show.
  constructor
  · refine List.pairwise_append.mpr ⟨?_, hlater, ?_⟩
    · exact List.pairwise_of_forall_mem_list fun p hp q _ hc => absurd hc (hunchained p hp)
    · exact fun p hp q _ hc => absurd hc (hunchained p hp)
  · intro p hp
    rcases List.mem_append.mp hp with hp | hp
    · exact fun hc => absurd hc (hunchained p hp)
    · exact hitself p hp

/-- In an order of registration a source stands before the chained parameter that has it. -/
theorem InOrder.mem_before {before after : List Parameter} {p q : Parameter}
    (h : InOrder (before ++ p :: after)) (hp : p.tier = .chained)
    (hsource : p.sourceKey? = some q.key) (hq : q ∈ before ++ p :: after) : q ∈ before := by
  -- A source that is neither the parameter nor after it is before it.
  rcases List.mem_append.mp hq with hbefore | hq
  · exact hbefore
  · have hself : NotBefore p p := h.itself p (List.mem_append_right _ List.mem_cons_self)
    rcases List.mem_cons.mp hq with rfl | hafter
    · exact absurd hsource (hself hp)
    · have hlater := (List.pairwise_cons.mp (List.pairwise_append.mp h.later).2.1).1
      exact absurd hsource (hlater q hafter hp)

end Parameter

end RunParams
