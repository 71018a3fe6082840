import RunParams.KeyMap

/-!
# Files and the paths to them

A path leads from the root or from the working directory to a file, one name after the other. Every
name but the last has to be that of a directory, and so has the last one if a slash follows it.
-/

namespace RunParams.CommandLine

/-- Why a file could not be read. -/
inductive ReadProblem where
  | missing
  | denied
  | notDirectory
  | directory
  | nameTooLong
  | notText
  | other (report : String)
  deriving DecidableEq, Repr

/-- The wording of a problem. -/
def ReadProblem.message : ReadProblem → String
  | missing => "No such file or directory (os error 2)"
  | denied => "Permission denied (os error 13)"
  | notDirectory => "Not a directory (os error 20)"
  | directory => "Is a directory (os error 21)"
  | nameTooLong => "File name too long (os error 36)"
  | notText => "stream did not contain valid UTF-8"
  | other report => report

/-- What a path can lead to. -/
inductive Place where
  | file (text : String)
  | directory
  deriving DecidableEq, Repr

/-- The files within reach. -/
structure Files where
  /-- The names on the way from the root to the working directory. -/
  working : List String
  /-- What is at the end of each way from the root; its names are joined by slashes. -/
  places : KeyMap Place

namespace Files

/-- The files with some texts, among some directories. -/
def ofTexts (working directories : List String) (texts : List (String × String)) : Files :=
  ⟨working, .ofList (directories.map (fun name => (name, .directory)) ++
    texts.map fun file => (file.1, .file file.2))⟩

/-- The place at the end of a way from the root. -/
def place? (f : Files) (names : List String) : Option Place :=
  if names.isEmpty then some .directory else f.places.get? ("/".intercalate names)

/-- Goes on from a directory, one name after the other. -/
def follow (f : Files) (reached : List String) : List String → Except ReadProblem Place
  | [] =>
    match f.place? reached with
    | some place => .ok place
    | none => .error .missing
  | name :: rest =>
    match f.place? reached with
    | none => .error .missing
    | some (.file _) => .error .notDirectory
    | some .directory =>
      if name = "" ∨ name = "." then follow f reached rest
      else if name = ".." then follow f reached.dropLast rest
      else if 255 < name.utf8ByteSize then .error .nameTooLong
      else follow f (reached ++ [name]) rest

/-- The text of the file at a path. -/
def read (f : Files) (path : String) : Except ReadProblem String :=
  if path = "" then .error .missing
  else if 4095 < path.utf8ByteSize then .error .nameTooLong
  else
    let names := (path.toList.splitOn '/').map String.ofList
    match f.follow (if path.startsWith "/" then [] else f.working) names with
    | .error problem => .error problem
    | .ok .directory => .error .directory
    | .ok (.file text) => .ok text

end Files

end RunParams.CommandLine
