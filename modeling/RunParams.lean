import RunParams.Main
import RunParams.Scheduler.Interleaving
import RunParams.Proofs.BoundValues.Survival
import RunParams.Proofs.Declarations.Binding
import RunParams.Proofs.Declarations.Collisions
import RunParams.Proofs.Format.RoundTrip
import RunParams.Proofs.Isolation.Crowds
import RunParams.Proofs.Isolation.Deposits
import RunParams.Proofs.Latency.Timeouts
import RunParams.Proofs.Outputs.Aliases
import RunParams.Proofs.Outputs.Deferral
import RunParams.Proofs.Outputs.Enumerations
import RunParams.Proofs.Outputs.Unfinished
import RunParams.Proofs.Registration.Failures
import RunParams.Proofs.Registration.Positions
import RunParams.Proofs.Registration.Repetition
import RunParams.Proofs.Registration.Solutions
import RunParams.Proofs.Registration.Sources
import RunParams.Proofs.Registry.Refusals
import RunParams.Proofs.Resolving.Fixtures
import RunParams.Proofs.Run.Calls
import RunParams.Proofs.Run.Guarantees
import RunParams.Proofs.Scheduler.Cancelling
import RunParams.Proofs.Scheduler.Discarding
import RunParams.Proofs.Scheduler.Refinement
import RunParams.Proofs.Scheduler.Waiting
import RunParams.Proofs.Secrecy.Sessions
import RunParams.Proofs.Settings.Positive
