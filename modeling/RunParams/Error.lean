import RunParams.Duration

/-!
# Binding errors

Everything that can go wrong while the parameters of a run are bound. No message contains a secret:
the texts in it are keys, ids, names of kinds and what a store reports.

An error of a step itself is not among them, and neither is an output that reports errors: that is a
value like any other.
-/

namespace RunParams

/-- What goes wrong while parameters are bound. -/
inductive BindingError where
  /-- Two output parameters of a run have one key. -/
  | outputKeyCollision (key : String)
  /-- A credential does not exist, belongs to another organization or is of an unsupported type. -/
  | credentialNotFound (credential : String)
  /-- A run has no live context. -/
  | contextMissing (run : String)
  /-- A run has a live context already. -/
  | contextExists (run : String)
  /-- A context parameter refers to a kind of parameter that cannot be a source. -/
  | invalidSource (key kind : String)
  /-- The value of the source of a context parameter is no object. -/
  | malformedSource (key source : String)
  /-- The value that should be the id of a credential is no text. -/
  | invalidCredentialReference (key : String)
  /-- The output that a context parameter depends on is neither an object nor a list. -/
  | scalarOutput (key output : String)
  /-- A step declares a parameter that should have been bound when the run started. -/
  | unexpectedParameter (key kind : String)
  /-- Context parameters refer to each other in a circle. -/
  | dependencyCycle (keys : String)
  /-- A key has no value. -/
  | notRegistered (key : String)
  /-- The credential store failed. -/
  | credentialStore (report : String)
  /-- The store of external secrets failed. -/
  | secretStore (report : String)
  /-- A store took longer than allowed. -/
  | fetchTimeout (what : String) (limit : Duration)
  /-- Something else failed. -/
  | internal (cause : String)
  deriving DecidableEq, Repr, Inhabited

namespace BindingError

/-- The wording of an error. -/
def message : BindingError → String
  | outputKeyCollision key => "Output parameter key collision: " ++ key
  | credentialNotFound credential => "Credential not found: " ++ credential
  | contextMissing run => "Run context not initialized for run " ++ run
  | contextExists run => "Run context already initialized for run " ++ run
  | invalidSource key kind =>
    "Invalid source for context parameter " ++ key ++ ": " ++ kind ++
      " parameters cannot be a source"
  | malformedSource key source =>
    "Source value of context parameter " ++ key ++ " is not an object (source: " ++ source ++ ")"
  | invalidCredentialReference key =>
    "Credential reference " ++ key ++ " does not hold a string credential id"
  | scalarOutput key output =>
    "Context parameter " ++ key ++ " can only depend on an object or list output (output: " ++
      output ++ ")"
  | unexpectedParameter key kind =>
    kind ++ " parameter " ++ key ++
      " should have been registered when the run context was initialized"
  | dependencyCycle keys => "Context parameter dependency cycle involving: " ++ keys
  | notRegistered key => "Parameter not registered: " ++ key
  | credentialStore report => "Credential store error: " ++ report
  | secretStore report => "Secret store error: " ++ report
  | fetchTimeout what limit => "Fetch of " ++ what ++ " timed out after " ++ limit.render
  | internal cause => "Internal error: " ++ cause

/-- Whether the workflow itself is at fault, whatever its inputs and the stores hold. -/
def isDefinitionError : BindingError → Bool
  | outputKeyCollision _ | invalidSource _ _ | unexpectedParameter _ _ | dependencyCycle _ => true
  | _ => false

end BindingError

end RunParams
