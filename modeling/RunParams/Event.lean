import RunParams.Error

/-!
# Log events

What the library reports while it works. An event names runs, keys, labels, ids and counts; none has
room for a value, so no secret reaches a log.
-/

namespace RunParams

/-- How important an event is. -/
inductive Level where
  | error
  | warning
  | info
  | debug
  deriving DecidableEq, Repr, Inhabited

/-- The name of a level. -/
def Level.name : Level → String
  | error => "ERROR"
  | warning => "WARN"
  | info => "INFO"
  | debug => "DEBUG"

/-- Something that is reported. -/
inductive Event where
  -- outputs
  | outputOverwritten (key : String)
  | labelOverwritten (label : String)
  | outputHasErrors (output key : String)
  | contextOverwritten (key : String)
  -- credentials
  | fetchingCredential (credential organization : String)
  | credentialFetchFailed (credential : String) (error : BindingError)
  | unsupportedCredential (credential : String)
  -- contexts
  | bindingReplaced (run key : String)
  | outputKeyCollision (run key : String)
  | credentialIdMissing (run key : String)
  | credentialIdNull (run key : String)
  | secretWithoutValue (run key secret : String)
  | contextBound (run : String) (parameters secrets : Nat)
  | foreignOrganization (run organization : String)
  | alreadyRegistered (run key : String)
  | unexpectedParameter (run key kind : String)
  -- live contexts
  | contextCreated (run : String)
  | contextDiscarded (run : String)
  | contextExpired (run : String)
  -- runs
  | runStarting (run organization : String) (steps : Nat)
  | definitionRejected (run : String) (error : BindingError)
  | runCancelled (run label : String)
  | echoing (run label : String) (values : Nat)
  | runFinished (run status : String) (steps : Nat)
  | runFailed (run error : String)
  -- the scheduler
  | taskStarting (run : String)
  | cancelling (run : String)
  | contextsExpired (count : Nat)
  | outcomesPruned (count : Nat)
  | shuttingDown
  | aborting (run : String)
  deriving DecidableEq, Repr

namespace Event

/-- How important an event is. -/
def level : Event → Level
  | outputHasErrors _ _ | credentialFetchFailed _ _ | unsupportedCredential _
  | outputKeyCollision _ _ | credentialIdMissing _ _ | credentialIdNull _ _
  | unexpectedParameter _ _ _ | definitionRejected _ _ | runFailed _ _ => .error
  | outputOverwritten _ | labelOverwritten _ | contextOverwritten _ | bindingReplaced _ _
  | secretWithoutValue _ _ _ | foreignOrganization _ _ | contextExpired _ | runCancelled _ _
  | contextsExpired _ => .warning
  | fetchingCredential _ _ | contextBound _ _ _ | contextCreated _ | contextDiscarded _
  | runStarting _ _ _ | runFinished _ _ _ | taskStarting _ | cancelling _ | outcomesPruned _
  | shuttingDown | aborting _ => .info
  | alreadyRegistered _ _ | echoing _ _ _ => .debug

/-- What an event says. -/
def message : Event → String
  | outputOverwritten _ => "Output parameter already has a value, overwriting"
  | labelOverwritten _ => "Block label already has a value, overwriting"
  | outputHasErrors _ _ => "Output parameter has errors, setting context parameter to null"
  | contextOverwritten _ => "Context parameter already has a value, overwriting"
  | fetchingCredential _ _ => "Fetching credential"
  | credentialFetchFailed _ _ => "Failed to fetch credential"
  | unsupportedCredential _ => "Unsupported credential type"
  | bindingReplaced _ _ => "Duplicate workflow parameter key, using the new value"
  | outputKeyCollision _ _ => "Output parameter key collision"
  | credentialIdMissing _ _ => "Credential id missing"
  | credentialIdNull _ _ => "Referenced credential id is null"
  | secretWithoutValue _ _ _ => "External secret has no value, leaving parameter unregistered"
  | contextBound _ _ _ => "Run context initialized"
  | foreignOrganization _ _ => "Step registration for a different organization than the run"
  | alreadyRegistered _ _ => "Parameter already registered, skipping"
  | unexpectedParameter _ _ _ => "Parameter should have been registered at initialization"
  | contextCreated _ => "Run context created"
  | contextDiscarded _ => "Run context discarded"
  | contextExpired _ => "Discarding expired run context"
  | runStarting _ _ _ => "Starting workflow run"
  | definitionRejected _ _ => "Workflow definition rejected"
  | runCancelled _ _ => "Run cancelled before step"
  | echoing _ _ _ => "Echoing step parameters"
  | runFinished _ _ _ => "Workflow run finished"
  | runFailed _ _ => "Workflow run failed"
  | taskStarting _ => "Starting in-memory workflow run"
  | cancelling _ => "Cancelling in-memory workflow run"
  | contextsExpired _ => "Discarded expired run contexts"
  | outcomesPruned _ => "Pruned uncollected run outcomes"
  | shuttingDown => "Shutting down in-memory workflow runner"
  | aborting _ => "Aborting workflow run on shutdown"

/-- The details of an event, each with its name. -/
def fields : Event → List (String × String)
  | outputOverwritten key => [("key", key)]
  | labelOverwritten label => [("label", label)]
  | outputHasErrors output key => [("output_key", output), ("key", key)]
  | contextOverwritten key => [("key", key)]
  | fetchingCredential credential organization =>
    [("credential_id", credential), ("organization_id", organization)]
  | credentialFetchFailed credential error =>
    [("credential_id", credential), ("error", error.message)]
  | unsupportedCredential credential => [("credential_id", credential)]
  | bindingReplaced run key | outputKeyCollision run key | credentialIdMissing run key
  | credentialIdNull run key | alreadyRegistered run key => [("run_id", run), ("key", key)]
  | secretWithoutValue run key secret =>
    [("run_id", run), ("key", key), ("secret_key", secret)]
  | contextBound run parameters secrets =>
    [("run_id", run), ("parameters", toString parameters), ("secrets", toString secrets)]
  | foreignOrganization run organization => [("run_id", run), ("organization_id", organization)]
  | unexpectedParameter run key kind => [("run_id", run), ("key", key), ("kind", kind)]
  | contextCreated run | contextDiscarded run | contextExpired run | taskStarting run
  | cancelling run | aborting run => [("run_id", run)]
  | runStarting run organization steps =>
    [("run_id", run), ("organization_id", organization), ("steps", toString steps)]
  | definitionRejected run error => [("run_id", run), ("error", error.message)]
  | runCancelled run label => [("run_id", run), ("label", label)]
  | echoing run label values =>
    [("run_id", run), ("label", label), ("values", toString values)]
  | runFinished run status steps =>
    [("run_id", run), ("status", status), ("steps_completed", toString steps)]
  | runFailed run error => [("run_id", run), ("error", error)]
  | contextsExpired count | outcomesPruned count => [("count", toString count)]
  | shuttingDown => []

end Event

end RunParams
