import RunParams.CommandLine.Basic
import Std.Time.DateTime.Timestamp

/-!
# The program

Reads what an invocation needs from outside, has the command line decide, and prints what it says.
-/

namespace RunParams.CommandLine

/-- Whether a code of the operating system, which may be negated, is a certain number. -/
def isNumber (code number : UInt32) : Bool := code == number || code == 0 - number

/-- Reads a file as a text. -/
def readText (path : String) : IO (Except ReadProblem String) := do
  try
    match String.fromUTF8? (← IO.FS.readBinFile path) with
    | some text => return .ok text
    | none => return .error .notText
  catch
    | .noFileOrDirectory .. => return .error .missing
    | .permissionDenied .. => return .error .denied
    | .inappropriateType _ code _ =>
      return .error (if isNumber code 20 then .notDirectory else .directory)
    | .invalidArgument _ code details =>
      return .error (if isNumber code 36 then .nameTooLong else .other details)
    | problem => return .error (.other (toString problem))

/-- The lines at the start of a text that can be decoded. -/
def decodableText (bytes : ByteArray) : String :=
  match String.fromUTF8? bytes with
  | some text => text
  | none =>
    let lines := bytes.toList.splitOn 0x0A
    let decoded := lines.map fun line => String.fromUTF8? ⟨line.toArray⟩
    String.join ((decoded.takeWhile Option.isSome).map fun line => line.getD "" ++ "\n")

/-- Reads the file with more variables: the nearest one in the working directory or above it, at
most `height` directories up. -/
def findEnvironmentFile (path : String) : (height : Nat) → IO (Option String)
  | 0 => return none
  | height + 1 => do
    try
      return some (decodableText (← IO.FS.readBinFile path))
    catch
      | .noFileOrDirectory .. | .inappropriateType .. => findEnvironmentFile ("../" ++ path) height
      | _ => return none

/-- The variables of the environment that are texts. -/
def readEnvironment : IO Environment := do
  let names := [Settings.fetchLimitName, Settings.handleLeadName, Settings.maxRunAgeName,
    Settings.sweepIntervalName]
  try
    let block ← IO.FS.readBinFile "/proc/self/environ"
    let entries := (block.toList.splitOn 0).filterMap fun entry => do
      let text ← String.fromUTF8? ⟨entry.toArray⟩
      let chars := text.toList
      let name := chars.takeWhile (· ≠ '=')
      if name.length < chars.length then
        some (String.ofList name, String.ofList (chars.drop (name.length + 1)))
      else none
    return .ofList entries.reverse
  catch _ =>
    let entries ← names.mapM fun name => do return (name, ← IO.getEnv name)
    return .ofList (entries.filterMap fun e => e.2.map fun value => (e.1, value))

/-- The number that some bytes write, the highest first. -/
def numberOf (bytes : List UInt8) : Nat := bytes.foldl (fun n b => 256 * n + b.toNat) 0

/-- A stream of ids from random bytes. -/
def randomDraws (bytes : ByteArray) : Draws :=
  ⟨fun n => .random (numberOf (bytes.extract (16 * n) (16 * n + 16)).toList), 0⟩

/-- Performs a dry run. -/
def runProgram (arguments : List String) : IO UInt32 := do
  let environment ← readEnvironment
  let environmentFile ← findEnvironmentFile ".env" 64
  let text ← match arguments with
    | [] => pure (.error .missing)
    | path :: _ => readText path
  -- a text has fewer secrets than characters
  let count := match text with
    | .ok text => text.utf8ByteSize
    | .error _ => 0
  let random ← IO.getRandomBytes (16 * (count + 1)).toUSize
  let now ← Std.Time.Timestamp.now
  let millis := now.toMillisecondsSinceUnixEpoch.val.toNat
  let freshId := Uuid.timed millis (numberOf (random.extract 0 16).toList)
  let draws := randomDraws (random.extract 16 random.size)
  let result := execute ⟨arguments, environment, environmentFile, fun _ => text, freshId, draws⟩
  IO.print result.output
  IO.eprint result.errors
  return result.code.toUInt32

end RunParams.CommandLine

/-- The program. -/
def main (arguments : List String) : IO UInt32 := RunParams.CommandLine.runProgram arguments
