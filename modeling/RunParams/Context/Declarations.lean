import RunParams.Parameter.Format

/-!
# What a run declares

The parameters that are bound when a run starts: workflow parameters with their values, and output,
context and secret parameters without.
-/

namespace RunParams

open Decoder

/-- A workflow parameter with its value for a run. -/
structure WorkflowBinding where
  parameter : WorkflowParameter
  value : Json
  deriving Repr, Inhabited

namespace WorkflowBinding

/-- Writes a binding. -/
def encode (b : WorkflowBinding) : Json :=
  .ofMembers [("parameter", b.parameter.encode), ("value", b.value)]

/-- Reads a binding. -/
def decode : Decoder WorkflowBinding :=
  record "struct WorkflowBinding" ["parameter", "value"] fun p =>
    WorkflowBinding.mk <$> p.required "parameter" WorkflowParameter.decode
      <*> p.required "value" any

end WorkflowBinding

/-- The declarations of a run. -/
structure Declarations where
  bindings : List WorkflowBinding
  outputs : List OutputParameter
  contexts : List ContextParameter
  secrets : List SecretParameter
  deriving Repr, Inhabited

namespace Declarations

/-- No declarations. -/
def none : Declarations := ⟨[], [], [], []⟩

/-- Writes declarations. -/
def encode (d : Declarations) : Json :=
  .ofMembers [("workflow_bindings", .array (d.bindings.map (·.encode))),
    ("output_parameters", .array (d.outputs.map (·.encode))),
    ("context_parameters", .array (d.contexts.map (·.encode))),
    ("secret_parameters", .array (d.secrets.map (·.encode)))]

/-- Reads declarations. -/
def decode : Decoder Declarations :=
  record "struct RunDeclarations"
    ["workflow_bindings", "output_parameters", "context_parameters", "secret_parameters"] fun p =>
    Declarations.mk <$> p.defaulted "workflow_bindings" (list WorkflowBinding.decode) []
      <*> p.defaulted "output_parameters" (list OutputParameter.decode) []
      <*> p.defaulted "context_parameters" (list ContextParameter.decode) []
      <*> p.defaulted "secret_parameters" (list SecretParameter.decode) []

end Declarations

end RunParams
