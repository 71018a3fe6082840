import RunParams.Error

/-!
# Failures of runs

A run fails for a reason, and on the way up more is said about what was being done. A `Failure` is
that chain: what was being done, outermost first, and the reason. An error in binding keeps its
identity, so that a caller can still tell which one it was.
-/

namespace RunParams

/-- Why something failed. -/
inductive Reason where
  | binding (error : BindingError)
  | other (report : String)
  deriving DecidableEq, Repr, Inhabited

/-- A reason, and what was being done, outermost first. -/
structure Failure where
  doing : List String
  reason : Reason
  deriving DecidableEq, Repr, Inhabited

namespace Failure

/-- The failure with a reason in words. -/
def ofReport (report : String) : Failure := ⟨[], .other report⟩

/-- The failure to bind a parameter. -/
def ofBinding (error : BindingError) : Failure := ⟨[], .binding error⟩

/-- Says what was being done. -/
def whileDoing (doing : String) (f : Failure) : Failure := { f with doing := doing :: f.doing }

/-- The messages of a reason. One that was caused by something else repeats that on its own. -/
def reasonMessages : Reason → List String
  | .binding (.internal cause) => [(BindingError.internal cause).message, cause]
  | .binding error => [error.message]
  | .other report => [report]

/-- The messages of a failure, outermost first. -/
def messages (f : Failure) : List String := f.doing ++ reasonMessages f.reason

/-- The outermost message. -/
def headline (f : Failure) : String := f.messages.headD ""

/-- All messages in one line. -/
def message (f : Failure) : String := ": ".intercalate f.messages

/-- The error in binding that a failure comes from. -/
def cause? (f : Failure) : Option BindingError :=
  match f.reason with
  | .binding error => some error
  | .other _ => none

/-- A cause in the report of a failure, with its number if there are several; later lines are set in
as far as the first. -/
def causeLines (number : Option Nat) (cause : String) : String :=
  match number with
  | none => "\n    " ++ cause.replace "\n" "\n    "
  | some n =>
    let shown := toString n
    "\n" ++ "".pushn ' ' (5 - shown.length) ++ shown ++ ": " ++ cause.replace "\n" "\n       "

/-- The report of a failure on several lines. -/
def report (f : Failure) : String :=
  match f.messages with
  | [] => ""
  | [message] => message
  | [message, cause] => message ++ "\n\nCaused by:" ++ causeLines none cause
  | message :: causes =>
    message ++ "\n\nCaused by:" ++
      String.join (causes.zipIdx.map fun (cause, n) => causeLines (some n) cause)

end Failure

/-- How the work of an executor comes to nothing. -/
inductive Mishap where
  /-- It reports a failure. -/
  | failed (failure : Failure)
  /-- It breaks down, perhaps with some last words. -/
  | crashed (words : Option String)
  deriving DecidableEq, Repr, Inhabited

namespace Mishap

/-- Says what was being done, if a failure was reported. -/
def whileDoing (doing : String) : Mishap → Mishap
  | failed failure => failed (failure.whileDoing doing)
  | crashed words => crashed words

/-- The failure of a run whose work came to nothing. -/
def toFailure (run : String) : Mishap → Failure
  | failed failure => failure
  | crashed words =>
    .ofReport ("Run " ++ run ++ " panicked: " ++ words.getD "unknown panic")

end Mishap

end RunParams
