import RunParams.Context.Declarations

/-!
# Workflows

A workflow declares parameters and lists steps. For a run it is combined with inputs, the values of
its workflow parameters. The output parameter of each step counts as declared.
-/

namespace RunParams

open Decoder

/-- A step of a workflow. -/
structure Step where
  label : String
  /-- The parameters that the step reads. -/
  parameters : List Parameter
  /-- The parameter that takes the output, if it is not the one that the label names. -/
  explicitOutput : Option OutputParameter
  deriving Repr, Inhabited

namespace Step

/-- The parameter that takes the output of the step. -/
def output (s : Step) : OutputParameter := s.explicitOutput.getD (.ofLabel s.label)

/-- Writes a step. -/
def encode (s : Step) : Json :=
  .ofMembers [("label", .text s.label), ("parameters", .array (s.parameters.map (·.encode))),
    ("output_parameter", .option OutputParameter.encode s.explicitOutput)]

/-- Reads a step. -/
def decode : Decoder Step :=
  record "struct StepDefinition" ["label", "parameters", "output_parameter"] fun p =>
    Step.mk <$> p.required "label" text <*> p.defaulted "parameters" (list Parameter.decode) []
      <*> p.defaulted "output_parameter" (option OutputParameter.decode) none

end Step

/-- Parameters and steps. -/
structure Workflow where
  parameters : List WorkflowParameter
  outputs : List OutputParameter
  contexts : List ContextParameter
  secrets : List SecretParameter
  steps : List Step
  deriving Repr, Inhabited

namespace Workflow

/-- The workflow without parameters and steps. -/
def empty : Workflow := ⟨[], [], [], [], []⟩

/-- The value of a workflow parameter: the input for it, or else its default. -/
def valueOf (inputs : KeyMap Json) (p : WorkflowParameter) : Except String Json :=
  match inputs.get? p.key, p.default with
  | some value, _ | none, some value => .ok value
  | none, none => .error ("No value for workflow parameter " ++ p.key)

/-- Adds an output parameter to others unless one of them has its key. -/
def addOutput (outputs : List OutputParameter) (output : OutputParameter) : List OutputParameter :=
  if outputs.any fun p => p.key = output.key then outputs else outputs ++ [output]

/-- The declarations of a run with some inputs. -/
def declarations (w : Workflow) (inputs : KeyMap Json) : Except String Declarations := do
  let bindings ← w.parameters.mapM fun p => do return ⟨p, ← valueOf inputs p⟩
  return ⟨bindings, (w.steps.map Step.output).foldl addOutput w.outputs, w.contexts, w.secrets⟩

/-- Writes a workflow. -/
def encode (w : Workflow) : Json :=
  .ofMembers [("workflow_parameters", .array (w.parameters.map (·.encode))),
    ("output_parameters", .array (w.outputs.map (·.encode))),
    ("context_parameters", .array (w.contexts.map (·.encode))),
    ("secret_parameters", .array (w.secrets.map (·.encode))),
    ("steps", .array (w.steps.map (·.encode)))]

/-- Reads a workflow. -/
def decode : Decoder Workflow :=
  record "struct WorkflowDefinition" ["workflow_parameters", "output_parameters",
    "context_parameters", "secret_parameters", "steps"] fun p =>
    Workflow.mk <$> p.defaulted "workflow_parameters" (list WorkflowParameter.decode) []
      <*> p.defaulted "output_parameters" (list OutputParameter.decode) []
      <*> p.defaulted "context_parameters" (list ContextParameter.decode) []
      <*> p.defaulted "secret_parameters" (list SecretParameter.decode) []
      <*> p.defaulted "steps" (list Step.decode) []

end Workflow

end RunParams
