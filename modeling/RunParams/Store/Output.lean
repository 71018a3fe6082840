import RunParams.Store.Basic
import RunParams.Action

/-!
# Recording outputs

When a step has finished, its output becomes the value of its output parameter. It is also kept
under the label of the step, as an alias that grows over the records (`aliased`), and delivered to
every context parameter that depends on it (`delivery`).

A step that reports a status other than completed along with what it has extracted so far is not
finished: its dependents are left alone. One that reports errors makes them null.
-/

namespace RunParams

/-- What an output brings a dependent. -/
inductive Delivery where
  /-- The step is not finished. -/
  | nothing
  /-- The step reports errors. -/
  | errors
  /-- The value of the dependent. -/
  | value (value : Json)
  /-- An output without entries, so none for the dependent either. -/
  | scalar
  deriving Repr

namespace Store

/-- The entry of an output with what a step has extracted. -/
def extractedKey : String := "extracted_information"

/-- The status of a finished step. -/
def completed : String := "completed"

/-- Whether an output reports a status other than completed along with extracted information. -/
def isUnfinished (output : Json) : Bool :=
  match output.member? extractedKey, output.member? "status" with
  | some _, some status => status.text? ≠ some completed
  | _, _ => false

/-- Whether an output reports errors. -/
def hasErrors (output : Json) : Bool := ((output.member? "errors").map Json.isTruthy).getD false

/-- What an output holds for its dependents: the extracted information if it has some. -/
def content (output : Json) : Json := (output.member? extractedKey).getD output

/-- What an output brings the dependent with a key. -/
def delivery (output : Json) (key : String) : Delivery :=
  if isUnfinished output then .nothing
  else if hasErrors output then .errors
  else
    match content output with
    | .object members => .value ((Entries.find key members).getD .null)
    | .array items => .value (.array items)
    | _ => .scalar

/-- An output with its extracted information repeated as the entry `output`. -/
def withOutput : Json → Json
  | .object members =>
    match Entries.find extractedKey members with
    | some extracted => .object (Entries.insert "output" extracted members)
    | none => .object members
  | output => output

/-- The value of a label after an output: the output, with the entries that the label already has.
-/
def aliased (current : Option Json) (output : Json) : Json :=
  match current, withOutput output with
  | some (.object existing), .object members =>
    .object (existing.foldl (fun merged e => Entries.insert e.1 e.2 merged) members)
  | _, latest => latest

/-- Whether the value of a label is lost to an output, since one of them is no object. -/
def replacesAlias (current : Option Json) (output : Json) : Bool :=
  match current, output with
  | none, _ | some (.object _), .object _ => false
  | some _, _ => true

/-- Keeps an output under the label that the key of its parameter names. -/
def recordAlias (parameter : OutputParameter) (output : Json) : Action Store Unit := do
  match parameter.label? with
  | none => return
  | some label =>
    let current := (← Action.get).value? label
    if replacesAlias current output then Action.report (.labelOverwritten label)
    Action.modify (·.set label (aliased current output))

/-- Delivers an output to a dependent. -/
def deliver (parameter : OutputParameter) (output : Json) (key : String) : Action Store Unit := do
  match delivery output key with
  | .nothing => return
  | .errors =>
    Action.report (.outputHasErrors parameter.key key)
    Action.modify (·.set key .null)
  | .scalar => Action.fail (.scalarOutput key parameter.key)
  | .value value =>
    if (((← Action.get).value? key).map fun old => !old.isNull).getD false then
      Action.report (.contextOverwritten key)
    Action.modify (·.set key value)

/-- Delivers an output to some dependents. -/
def deliverAll (parameter : OutputParameter) (output : Json) : List String → Action Store Unit
  | [] => pure ()
  | key :: rest => do deliver parameter output key; deliverAll parameter output rest

/-- Records the output of a step. The dependents are delivered to in the order of their keys, as one
of the orders in which definitions may be enumerated. The order decides in which order deliveries
are reported, and which dependent an error names; in all else every order comes to the same
(`recordAlong`). -/
def record (parameter : OutputParameter) (output : Json) : Action Store Unit := do
  if (← Action.get).hasValue parameter.key then Action.report (.outputOverwritten parameter.key)
  Action.modify (·.set parameter.key output)
  recordAlias parameter output
  let dependents := (← Action.get).dependents ⟨.output, parameter.key⟩
  deliverAll parameter output (dependents.map (·.key))

end Store

end RunParams
