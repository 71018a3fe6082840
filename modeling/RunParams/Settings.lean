import RunParams.Context.Basic
import RunParams.Run.Failure
import RunParams.Text.Numeral

/-!
# Settings from the environment

Four variables of the environment change how runs are performed. Each may be missing. Numbers have
the grammar of `Text.Numeral` and must not be zero, and the lead of handles must not be empty.
-/

namespace RunParams

/-- The variables of the environment that are texts. -/
abbrev Environment := KeyMap String

namespace Settings

/-- The limit of a fetch, in milliseconds. -/
def fetchLimitName : String := "RUNBIND_FETCH_TIMEOUT_MS"

/-- The lead of handles. -/
def handleLeadName : String := "RUNBIND_SECRET_HANDLE_PREFIX"

/-- The age at which a context is discarded, in seconds. -/
def maxRunAgeName : String := "RUNBIND_MAX_RUN_AGE_SECS"

/-- The time between two sweeps, in seconds. -/
def sweepIntervalName : String := "RUNBIND_SWEEP_INTERVAL_SECS"

/-- Reads a number that is not zero from the text of a variable. -/
def readPositive (name kind raw : String) : Except Failure Nat :=
  match Text.Numeral.read raw with
  | .error problem =>
    .error ((Failure.ofReport problem.message).whileDoing
      (name ++ " must be " ++ kind ++ ", got " ++ Text.quoted raw))
  | .ok 0 => .error (.ofReport (name ++ " must be greater than zero"))
  | .ok n => .ok n

/-- Reads a variable, if it is there, that is a number of milliseconds. -/
def readMillis (env : Environment) (name : String) : Except Failure (Option Duration) :=
  match env.get? name with
  | none => .ok none
  | some raw => do return some (.millis (← readPositive name "an integer" raw))

/-- Reads a variable, if it is there, that is a number of seconds. -/
def readSeconds (env : Environment) (name : String) : Except Failure (Option Duration) :=
  match env.get? name with
  | none => .ok none
  | some raw => do return some (.seconds (← readPositive name "a number of seconds" raw))

end Settings

/-- Reads the settings of contexts. -/
def ResolverSettings.ofEnvironment (env : Environment) : Except Failure ResolverSettings := do
  let fetchLimit ← Settings.readMillis env Settings.fetchLimitName
  match env.get? Settings.handleLeadName with
  | none => return ⟨fetchLimit, Vault.defaultLead⟩
  | some "" => .error (.ofReport (Settings.handleLeadName ++ " must not be empty"))
  | some lead => return ⟨fetchLimit, lead⟩

/-- The settings of a scheduler. -/
structure RunnerSettings where
  resolver : ResolverSettings
  /-- The age at which a context or an outcome is discarded. -/
  maxRunAge : Duration
  /-- The time between two sweeps. -/
  sweepInterval : Duration
  deriving DecidableEq, Repr

namespace RunnerSettings

/-- Six hours, and a sweep a minute. -/
def standard : RunnerSettings := ⟨.standard, .seconds 21600, .seconds 60⟩

instance : Inhabited RunnerSettings := ⟨standard⟩

/-- Reads the settings of a scheduler. -/
def ofEnvironment (env : Environment) : Except Failure RunnerSettings := do
  let resolver ← ResolverSettings.ofEnvironment env
  let maxRunAge ← Settings.readSeconds env Settings.maxRunAgeName
  let sweepInterval ← Settings.readSeconds env Settings.sweepIntervalName
  return ⟨resolver, maxRunAge.getD standard.maxRunAge, sweepInterval.getD standard.sweepInterval⟩

end RunnerSettings

end RunParams
