import RunParams.CommandLine.EnvironmentFile
import RunParams.CommandLine.Files
import RunParams.Manifest
import RunParams.Scheduler.Timeline

/-!
# The command line

The program performs the dry run that a manifest describes and prints a summary of it. Everything
that it learns from outside is in an `Invocation`, and everything that it does is in its `Exit`.
-/

namespace RunParams.CommandLine

/-- What the program learns from outside. -/
structure Invocation where
  arguments : List String
  environment : Environment
  /-- The text of the file with more variables, if there is one. -/
  environmentFile : Option String
  /-- The files. -/
  read : String → Except ReadProblem String
  /-- The id for a run whose manifest gives none. -/
  freshId : Uuid
  draws : Draws

/-- What the program does. -/
structure Exit where
  code : Nat
  output : String
  errors : String
  deriving DecidableEq, Repr

/-- The end of a program that has failed. -/
def Exit.ofFailure (f : Failure) : Exit := ⟨1, "", "Error: " ++ f.report ++ "\n"⟩

/-- How the program is to be used. -/
def usage : String := "Usage: runbind-worker <manifest.json>"

/-- Reads the manifest at a path. -/
def loadManifest (i : Invocation) (path : String) : Except Failure Manifest :=
  match i.read path with
  | .error problem =>
    .error ((Failure.ofReport problem.message).whileDoing ("Failed to read manifest " ++ path))
  | .ok text =>
    (Manifest.ofText text).mapError fun e =>
      (Failure.ofReport e.message).whileDoing ("Invalid manifest " ++ path)

/-- Performs the run of a manifest in the background, with a sweeper, and collects its outcome. -/
def perform (settings : RunnerSettings) (m : Manifest) (run : String) (draws : Draws) :
    Option Outcome :=
  let world := World.start settings.resolver m.seed.backend draws
  let t := (Timeline.ofSystem (System.ofWorld settings world)).startSweeper
  let (_, t) := t.start echo (m.input run)
  match (t.wait run 0).1 with
  | .ok outcome => outcome
  | .error () => none

/-- What the program does when it is told to perform a run. -/
def dryRun (i : Invocation) : Except Failure Exit := do
  let environment := match i.environmentFile with
    | none => i.environment
    | some text => EnvironmentFile.load i.environment text
  match i.arguments with
  | [] => throw (.ofReport usage)
  | path :: _ =>
    let settings ← RunnerSettings.ofEnvironment environment
    let m ← loadManifest i path
    let run := m.run.getD ("wr_" ++ i.freshId.render)
    match perform settings m run i.draws with
    | some (.finished summary) =>
      return ⟨0, (Json.object summary.members).pretty ++ "\n", ""⟩
    | some (.failed report) => throw (.ofReport ("Run " ++ run ++ " failed: " ++ report))
    | none => throw (.ofReport ("Run " ++ run ++ " did not finish"))

/-- What the program does. -/
def execute (i : Invocation) : Exit :=
  match dryRun i with
  | .ok result => result
  | .error failure => .ofFailure failure

end RunParams.CommandLine
