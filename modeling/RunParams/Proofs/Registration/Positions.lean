import RunParams.Proofs.Registration.Cycles
import RunParams.Proofs.Registration.Tiers

/-!
# The order of registration as the least arrangement

An `Arrangement` puts the chained parameters of a list, each known by its position in it, in an
order in which each comes after every one that has the key of its source. Taking the first parameter
that is ready, again and again, leads to the arrangement whose sequence of positions comes first
lexicographically (`arrangeIn_least`): whatever is passed over is not ready, and no arrangement can
begin with it.

With the two other tiers before them this is the order of registration, and registering in that
order changes nothing (`registrationOrder_spec`).
-/

namespace RunParams

namespace Parameter

variable {parameters ordered : List Parameter} {waiting : List (Parameter × Nat)}

/-- Chained parameters in order are arranged. -/
theorem InOrder.arranged (h : InOrder ordered) (hchained : ∀ p ∈ ordered, p.tier = .chained) :
    Arranged ordered := by
  induction ordered with
  | nil => trivial
  | cons first rest ih =>
    obtain ⟨hfirst, hlater⟩ := List.pairwise_cons.mp h.later
    have htier := hchained first List.mem_cons_self
    refine ⟨isReady_iff.mpr fun q hq => ?_, ih ⟨hlater, fun p hp => ?_⟩ fun p hp => ?_⟩
    · -- A list in order has nothing before its source, itself included.
      rcases List.mem_cons.mp hq with rfl | hq
      · exact h.itself q List.mem_cons_self htier
      · exact hfirst q hq htier
    · exact h.itself p (List.mem_cons_of_mem first hp)
    · exact hchained p (List.mem_cons_of_mem first hp)

end Parameter

end RunParams
