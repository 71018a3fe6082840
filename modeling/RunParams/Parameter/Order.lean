import RunParams.Parameter.Basic
import RunParams.Error

/-!
# The order of registration

A step's parameters are registered in tiers: first everything that is no context parameter, then the
context parameters with a source of another kind, then the chained ones, whose source is itself a
context parameter. Within a tier the declared order stays, except that a chained parameter waits
until no parameter of its tier with the key of its source is left (`arrange`). Those that wait for
each other make up a cycle.
-/

namespace RunParams

/-- The place of a parameter in the order of registration. -/
inductive Tier where
  /-- No context parameter. -/
  | immediate
  /-- A context parameter whose source is none. -/
  | direct
  /-- A context parameter whose source is one. -/
  | chained
  deriving DecidableEq, Repr, Inhabited

namespace Parameter

/-- The tier of a parameter. -/
def tier : Parameter → Tier
  | context p => if p.source.kind = .context then .chained else .direct
  | _ => .immediate

/-- The key of the source of a context parameter. -/
def sourceKey? : Parameter → Option String
  | context p => some p.source.key
  | _ => none

/-- Whether a parameter waits for none of some others. -/
def isReady (waiting : List Parameter) (p : Parameter) : Bool :=
  match p.sourceKey? with
  | none => true
  | some key => !(waiting.map Parameter.key).contains key

/-- The first parameter that waits for none of `waiting`, and the list without it. -/
def takeReady (waiting : List Parameter) : List Parameter → Option (Parameter × List Parameter)
  | [] => none
  | p :: rest =>
    if p.isReady waiting then some (p, rest)
    else (takeReady waiting rest).map fun (ready, others) => (ready, p :: others)

/-- Arranges parameters so that each comes after its source, with `fuel` at least their number. -/
def arrangeIn : (fuel : Nat) → List Parameter → Except BindingError (List Parameter)
  | 0, _ => .ok []
  | _, [] => .ok []
  | fuel + 1, waiting =>
    match takeReady waiting waiting with
    | some (ready, others) => (ready :: ·) <$> arrangeIn fuel others
    | none => .error (.dependencyCycle (", ".intercalate (waiting.map Parameter.key)))

/-- Arranges parameters so that each comes after its source: again and again the first one whose
source is not left. -/
def arrange (waiting : List Parameter) : Except BindingError (List Parameter) :=
  arrangeIn waiting.length waiting

/-- The parameters of a tier in their order. -/
def ofTier (tier : Tier) (parameters : List Parameter) : List Parameter :=
  parameters.filter fun p => p.tier = tier

/-- The order in which the parameters of a step are registered. -/
def registrationOrder (parameters : List Parameter) : Except BindingError (List Parameter) := do
  let chained ← arrange (ofTier .chained parameters)
  return ofTier .immediate parameters ++ ofTier .direct parameters ++ chained

/-- Taking one parameter away leaves one less. -/
theorem length_of_takeReady {waiting parameters others : List Parameter} {ready : Parameter}
    (h : takeReady waiting parameters = some (ready, others)) :
    parameters.length = others.length + 1 := by
  induction parameters generalizing others with
  | nil => cases h
  | cons p rest ih =>
    simp only [takeReady] at h
    split at h
    · cases h; rfl
    · cases hr : takeReady waiting rest with
      | none => simp [hr] at h
      | some found =>
        simp only [hr, Option.map_some, Option.some.injEq, Prod.mk.injEq] at h
        obtain ⟨rfl, rfl⟩ := h
        simp [ih hr]

end Parameter

end RunParams
