import RunParams.Proofs.Format.Reading
import RunParams.Workflow

/-!
# Definitions survive being written and read

What is written of a workflow, of the declarations of a run or of a parameter is read back as it
was, but for one thing: null stands for a missing default, so a default that is itself null is lost.
`withoutNull` drops such a default wherever a workflow parameter occurs, and that is what is read
(`decode_encode`).

There is one lemma for each type, put together from those for the types of its fields. Whether a
part is read from the value of a field or from what is left of a tagged object makes no difference,
so the records of the five kinds of parameters are treated once.
-/

namespace RunParams

open Decoder

/-! ## Null defaults -/

namespace WorkflowParameter

/-- The parameter with a null default dropped. -/
def withoutNull (w : WorkflowParameter) : WorkflowParameter :=
  { w with default := w.default.filter fun value => !value.isNull }

/-- Nothing is dropped unless the default is null. -/
theorem withoutNull_eq_self_iff (w : WorkflowParameter) :
    w.withoutNull = w ↔ w.default ≠ some .null := by
  obtain ⟨key, description, type, value?⟩ := w
  cases value? with
  | none => exact iff_of_true rfl nofun
  | some value =>
    cases value with
    | null => exact iff_of_false nofun fun h => h rfl
    | bool _ | number _ | text _ | array _ | object _ => exact iff_of_true rfl nofun

end WorkflowParameter

namespace Parameter

/-- The workflow parameters that occur in a parameter: itself, if it is one. -/
def workflowParameters : Parameter → List WorkflowParameter
  | workflow w => [w]
  | context _ | output _ | credential _ | externalSecret _ => []

/-- The parameter with a null default dropped. -/
def withoutNull : Parameter → Parameter
  | workflow w => workflow w.withoutNull
  | p => p

/-- Nothing is dropped unless the default of a workflow parameter is null. -/
theorem withoutNull_eq_self_iff (p : Parameter) :
    p.withoutNull = p ↔ ∀ w ∈ p.workflowParameters, w.default ≠ some .null := by
  cases p with
  | workflow w =>
    have hsame : (workflow w).withoutNull = workflow w ↔ w.withoutNull = w :=
      ⟨workflow.inj, congrArg workflow⟩
    unfold workflowParameters
    rw [hsame, w.withoutNull_eq_self_iff, List.forall_mem_singleton]
  | context _ | output _ | credential _ | externalSecret _ => exact iff_of_true rfl nofun

end Parameter

/-- A list is left as it is by a function that leaves each item as it is. -/
theorem map_eq_self_iff {α : Type} {f : α → α} {xs : List α} :
    xs.map f = xs ↔ ∀ x ∈ xs, f x = x := by
  have hsame := List.map_inj_left (f := f) (g := id) (l := xs)
  rwa [List.map_id] at hsame

namespace Step

/-- The workflow parameters that occur in a step. -/
def workflowParameters (s : Step) : List WorkflowParameter :=
  s.parameters.flatMap (·.workflowParameters)

/-- The step with null defaults dropped. -/
def withoutNull (s : Step) : Step :=
  { s with parameters := s.parameters.map (·.withoutNull) }

/-- Nothing is dropped from a step unless it has a null default. -/
theorem withoutNull_eq_self_iff (s : Step) :
    s.withoutNull = s ↔ ∀ w ∈ s.workflowParameters, w.default ≠ some .null := by
  have hsame : s.withoutNull = s ↔ s.parameters.map (·.withoutNull) = s.parameters :=
    ⟨fun h => congrArg parameters h, fun h => congrArg (fun ps => { s with parameters := ps }) h⟩
  rw [hsame, map_eq_self_iff]
  simp only [Parameter.withoutNull_eq_self_iff, workflowParameters, List.forall_mem_flatMap]

end Step

namespace Workflow

/-- The workflow parameters that occur in a workflow, those in its steps included. -/
def workflowParameters (w : Workflow) : List WorkflowParameter :=
  w.parameters ++ w.steps.flatMap (·.workflowParameters)

/-- The workflow with null defaults dropped, those in its steps included. -/
def withoutNull (w : Workflow) : Workflow :=
  { w with
    parameters := w.parameters.map (·.withoutNull)
    steps := w.steps.map (·.withoutNull) }

/-- Nothing is dropped from a workflow unless it has a null default. -/
theorem withoutNull_eq_self_iff (w : Workflow) :
    w.withoutNull = w ↔ ∀ p ∈ w.workflowParameters, p.default ≠ some .null := by
  have hsame : w.withoutNull = w ↔
      w.parameters.map (·.withoutNull) = w.parameters ∧
        w.steps.map (·.withoutNull) = w.steps := by
    constructor
    · exact fun h => ⟨congrArg parameters h, congrArg steps h⟩
    · rintro ⟨hparameters, hsteps⟩
      unfold withoutNull
      rw [hparameters, hsteps]
  rw [hsame, map_eq_self_iff, map_eq_self_iff]
  simp only [WorkflowParameter.withoutNull_eq_self_iff, Step.withoutNull_eq_self_iff,
    workflowParameters, List.forall_mem_append, List.forall_mem_flatMap]

end Workflow

namespace WorkflowBinding

/-- The binding with a null default dropped; a null value stays. -/
def withoutNull (b : WorkflowBinding) : WorkflowBinding :=
  { b with parameter := b.parameter.withoutNull }

/-- Nothing is dropped from a binding unless the default of its parameter is null. -/
theorem withoutNull_eq_self_iff (b : WorkflowBinding) :
    b.withoutNull = b ↔ b.parameter.default ≠ some .null := by
  have hsame : b.withoutNull = b ↔ b.parameter.withoutNull = b.parameter :=
    ⟨fun h => congrArg parameter h, fun h => congrArg (fun p => { b with parameter := p }) h⟩
  rw [hsame, WorkflowParameter.withoutNull_eq_self_iff]

end WorkflowBinding

namespace Declarations

/-- The workflow parameters of some declarations. -/
def workflowParameters (d : Declarations) : List WorkflowParameter :=
  d.bindings.map (·.parameter)

/-- The declarations with null defaults dropped. -/
def withoutNull (d : Declarations) : Declarations :=
  { d with bindings := d.bindings.map (·.withoutNull) }

/-- Nothing is dropped from declarations unless they have a null default. -/
theorem withoutNull_eq_self_iff (d : Declarations) :
    d.withoutNull = d ↔ ∀ w ∈ d.workflowParameters, w.default ≠ some .null := by
  have hsame : d.withoutNull = d ↔ d.bindings.map (·.withoutNull) = d.bindings :=
    ⟨fun h => congrArg bindings h, fun h => congrArg (fun bs => { d with bindings := bs }) h⟩
  rw [hsame, map_eq_self_iff]
  simp only [WorkflowBinding.withoutNull_eq_self_iff, workflowParameters, List.forall_mem_map]

end Declarations

/-! ## What is read -/

/-- A kind is read back. -/
theorem Kind.reads (k : Kind) : decode.Reads k.encode k :=
  reads_variant (by cases k <;> rfl)

/-- The type of a workflow parameter is read back. -/
theorem ValueType.reads (t : ValueType) : decode.Reads t.encode t :=
  reads_variant (by cases t <;> rfl)

/-- A description is read back. -/
theorem reads_description (description : Option String) :
    (option text).Reads (.option .text description) description :=
  Reads.option reads_text (fun _ => rfl) description

/-- A reference is read back. -/
theorem Reference.readsMembers (r : Reference) :
    decode.ReadsMembers (Entries.sort r.members) r := by
  refine readsMembers_record fun p hp => ?_
  rw [hp.required rfl r.kind.reads, hp.required rfl (reads_text r.key)]
  rfl

/-- A workflow parameter is read back, but for a null default. -/
theorem WorkflowParameter.readsMembers (w : WorkflowParameter) :
    decode.ReadsMembers (Entries.sort w.members) w.withoutNull := by
  refine readsMembers_record fun p hp => ?_
  rw [hp.required rfl (reads_text w.key), hp.defaulted rfl (reads_description w.description) none,
    hp.required rfl w.type.reads, hp.defaulted rfl (reads_option_any w.default) none]
  rfl

/-- An output parameter is read back. -/
theorem OutputParameter.readsMembers (o : OutputParameter) :
    decode.ReadsMembers (Entries.sort o.members) o := by
  refine readsMembers_record fun p hp => ?_
  rw [hp.required rfl (reads_text o.key), hp.defaulted rfl (reads_description o.description) none]
  rfl

/-- A context parameter is read back. -/
theorem ContextParameter.readsMembers (c : ContextParameter) :
    decode.ReadsMembers (Entries.sort c.members) c := by
  refine readsMembers_record fun p hp => ?_
  rw [hp.required rfl (reads_text c.key), hp.defaulted rfl (reads_description c.description) none,
    hp.required rfl c.source.readsMembers.reads]
  rfl

/-- A credential parameter is read back. -/
theorem CredentialParameter.readsMembers (c : CredentialParameter) :
    decode.ReadsMembers (Entries.sort c.members) c := by
  refine readsMembers_record fun p hp => ?_
  rw [hp.required rfl (reads_text c.key), hp.defaulted rfl (reads_description c.description) none,
    hp.required rfl (reads_text c.credentialId)]
  rfl

/-- An external secret is read back. -/
theorem ExternalSecretParameter.readsMembers (e : ExternalSecretParameter) :
    decode.ReadsMembers (Entries.sort e.members) e := by
  refine readsMembers_record fun p hp => ?_
  rw [hp.required rfl (reads_text e.key), hp.defaulted rfl (reads_description e.description) none,
    hp.required rfl (reads_text e.secretKey)]
  rfl

/-- A parameter of any kind is read back, but for a null default. -/
theorem Parameter.reads (p : Parameter) : decode.Reads p.encode p.withoutNull := by
  cases p with
  | workflow w => exact reads_tagged rfl rfl (w.readsMembers.apply workflow)
  | context c => exact reads_tagged rfl rfl (c.readsMembers.apply context)
  | output o => exact reads_tagged rfl rfl (o.readsMembers.apply output)
  | credential c => exact reads_tagged rfl rfl (c.readsMembers.apply credential)
  | externalSecret e => exact reads_tagged rfl rfl (e.readsMembers.apply externalSecret)

/-- A secret parameter is read back. -/
theorem SecretParameter.reads (p : SecretParameter) : decode.Reads p.encode p := by
  cases p with
  | credential c => exact reads_tagged rfl rfl (c.readsMembers.apply credential)
  | externalSecret e => exact reads_tagged rfl rfl (e.readsMembers.apply externalSecret)

/-- The secret parameters of a list are read back. -/
theorem reads_secrets (secrets : List SecretParameter) :
    (list SecretParameter.decode).Reads (.array (secrets.map (·.encode))) secrets := by
  have hlist := Reads.list fun (p : SecretParameter) (_ : p ∈ secrets) => p.reads
  rwa [List.map_id'] at hlist

/-- The output parameters of a list are read back. -/
theorem reads_outputs (outputs : List OutputParameter) :
    (list OutputParameter.decode).Reads (.array (outputs.map (·.encode))) outputs := by
  have hlist := Reads.list fun (o : OutputParameter) (_ : o ∈ outputs) => o.readsMembers.reads
  rwa [List.map_id'] at hlist

/-- The context parameters of a list are read back. -/
theorem reads_contexts (contexts : List ContextParameter) :
    (list ContextParameter.decode).Reads (.array (contexts.map (·.encode))) contexts := by
  have hlist := Reads.list fun (c : ContextParameter) (_ : c ∈ contexts) => c.readsMembers.reads
  rwa [List.map_id'] at hlist

/-- A step is read back, but for null defaults. -/
theorem Step.reads (s : Step) : decode.Reads s.encode s.withoutNull := by
  have hparameters := Reads.list fun (p : Parameter) (_ : p ∈ s.parameters) => p.reads
  have houtput := Reads.option (fun o : OutputParameter => o.readsMembers.reads) (fun _ => rfl)
    s.explicitOutput
  refine (readsMembers_record fun p hp => ?_).reads
  rw [hp.required rfl (reads_text s.label), hp.defaulted rfl hparameters [],
    hp.defaulted rfl houtput none]
  rfl

/-- A workflow is read back, but for null defaults. -/
theorem Workflow.reads (w : Workflow) : decode.Reads w.encode w.withoutNull := by
  have hparameters := Reads.list fun (p : WorkflowParameter) (_ : p ∈ w.parameters) =>
    p.readsMembers.reads
  have hsteps := Reads.list fun (s : Step) (_ : s ∈ w.steps) => s.reads
  refine (readsMembers_record fun p hp => ?_).reads
  rw [hp.defaulted rfl hparameters [], hp.defaulted rfl (reads_outputs w.outputs) [],
    hp.defaulted rfl (reads_contexts w.contexts) [],
    hp.defaulted rfl (reads_secrets w.secrets) [], hp.defaulted rfl hsteps []]
  rfl

/-- A binding is read back, but for a null default. -/
theorem WorkflowBinding.reads (b : WorkflowBinding) : decode.Reads b.encode b.withoutNull := by
  refine (readsMembers_record fun p hp => ?_).reads
  rw [hp.required rfl b.parameter.readsMembers.reads, hp.required rfl (reads_any b.value)]
  rfl

/-- Declarations are read back, but for null defaults. -/
theorem Declarations.reads (d : Declarations) : decode.Reads d.encode d.withoutNull := by
  have hbindings := Reads.list fun (b : WorkflowBinding) (_ : b ∈ d.bindings) => b.reads
  refine (readsMembers_record fun p hp => ?_).reads
  rw [hp.defaulted rfl hbindings [], hp.defaulted rfl (reads_outputs d.outputs) [],
    hp.defaulted rfl (reads_contexts d.contexts) [],
    hp.defaulted rfl (reads_secrets d.secrets) []]
  rfl

/-! ## The whole format -/

/-- What is read from any value is read from a value at hand, and it is what was written just if
nothing was lost. -/
theorem ofJson_eq {α : Type} {decoder : Decoder α} {value : Json} {a b : α}
    (h : decoder.Reads value b) :
    ofJson decoder value = .ok b ∧ (ofJson decoder value = .ok a ↔ b = a) := by
  have hread : ofJson decoder value = .ok b := h .value textDepth nofun
  exact ⟨hread, hread ▸ Except.ok.injEq b a ▸ Iff.rfl⟩

/-- A workflow, declarations and a parameter of any kind that have been written are read, and what
is read is what was written with null defaults dropped. So it is the same just if no default is
null. -/
theorem decode_encode :
    (∀ w : Workflow,
      ofJson Workflow.decode w.encode = .ok w.withoutNull ∧
        (ofJson Workflow.decode w.encode = .ok w ↔
          ∀ p ∈ w.workflowParameters, p.default ≠ some .null)) ∧
    (∀ d : Declarations,
      ofJson Declarations.decode d.encode = .ok d.withoutNull ∧
        (ofJson Declarations.decode d.encode = .ok d ↔
          ∀ p ∈ d.workflowParameters, p.default ≠ some .null)) ∧
    ∀ p : Parameter,
      ofJson Parameter.decode p.encode = .ok p.withoutNull ∧
        (ofJson Parameter.decode p.encode = .ok p ↔
          ∀ w ∈ p.workflowParameters, w.default ≠ some .null) := by
  refine ⟨fun w => ?_, fun d => ?_, fun p => ?_⟩
  · rw [← w.withoutNull_eq_self_iff]
    exact ofJson_eq w.reads
  · rw [← d.withoutNull_eq_self_iff]
    exact ofJson_eq d.reads
  · rw [← p.withoutNull_eq_self_iff]
    exact ofJson_eq p.reads

end RunParams
