import RunParams.Json.Reader
import RunParams.Json.Printer
import RunParams.Text.Quoted

/-!
# Reading typed data from documents

A `Decoder` reads one kind of data from a `Source`, a document together with where it comes from.
Problems are reported one at a time, and which one is part of the format: the problem that stands
first in the text wins, and a missing field counts as standing after everything else. Records
therefore read each field on its own and note the place of its problem (`Reading`).

Data comes from a value at hand, from a text, or from a part of either that was set aside while the
tag of an alternative was looked for (`Origin`). The three differ in how they treat lists that are
too long, alternatives written as objects, and deep nesting.
-/

namespace RunParams

/-- What stands where something else was expected. -/
inductive Found where
  | null
  | bool (value : Bool)
  | number (value : Number)
  | text (value : String)
  | list
  | record
  deriving Repr

/-- The wording of what was found. -/
def Found.message : Found → String
  | null => "null"
  | bool value => "boolean `" ++ (if value then "true" else "false") ++ "`"
  | number (.int value) => "integer `" ++ toString value ++ "`"
  | number value => "floating point `" ++ value.render ++ "`"
  | text value => "string " ++ Text.quoted value
  | list => "sequence"
  | record => "map"

/-- What is wrong with data that should have a certain form. -/
inductive DecodeError where
  /-- The text is not JSON. -/
  | flawed (flaw : Flaw)
  /-- A field without default does not occur. -/
  | missingField (name : String)
  /-- No alternative has the name. -/
  | unknownVariant (name : String) (expected : List String)
  /-- A field occurs twice. -/
  | duplicateField (name : String)
  /-- A value has the wrong form. -/
  | invalidType (found : Found) (expected : String)
  /-- A list stands for a record and has too few or too many items. -/
  | invalidLength (length : Nat) (expected : String)
  /-- A value has the right form but makes no sense. -/
  | invalidValue (found : Found) (expected : String)
  deriving Repr

/-- The names of the alternatives, for a reader. -/
def DecodeError.alternatives : List String → String
  | [] => "there are no variants"
  | [a] => "expected `" ++ a ++ "`"
  | [a, b] => "expected `" ++ a ++ "` or `" ++ b ++ "`"
  | names => "expected one of " ++ ", ".intercalate (names.map fun n => "`" ++ n ++ "`")

/-- The wording of an error. -/
def DecodeError.message : DecodeError → String
  | flawed flaw => flaw.message
  | missingField name => "missing field `" ++ name ++ "`"
  | unknownVariant name expected => "unknown variant `" ++ name ++ "`, " ++ alternatives expected
  | duplicateField name => "duplicate field `" ++ name ++ "`"
  | invalidType found expected => "invalid type: " ++ found.message ++ ", expected " ++ expected
  | invalidLength length expected =>
    "invalid length " ++ toString length ++ ", expected " ++ expected
  | invalidValue found expected => "invalid value: " ++ found.message ++ ", expected " ++ expected

/-- Where data comes from. -/
inductive Origin where
  /-- A value at hand. -/
  | value
  /-- A text, which is read as it goes. -/
  | text
  /-- A part that was set aside and holds no flaw. -/
  | aside
  deriving DecidableEq, Repr

/-- A document, where it comes from, and how deep it may still be nested. -/
structure Source where
  origin : Origin
  depth : Nat
  document : Document

/-- The outermost form of a source. -/
inductive Shape where
  | flawed (form : Form) (flaw : Flaw)
  | scalar (value : Json)
  | list (items : List Source) (stop : Option Flaw)
  | record (members : List (String × Source)) (stop : Option Flaw)

namespace Source

/-- A source one level further inside. -/
def inside (s : Source) (document : Document) : Source := ⟨s.origin, s.depth - 1, document⟩

/-- The members before the first key with a flaw, and that flaw or else another one. -/
def readable (s : Source) :
    List (Except Flaw String × Document) → Option Flaw → List (String × Source) × Option Flaw
  | [], stop => ([], stop)
  | (.error flaw, _) :: _, _ => ([], some flaw)
  | (.ok key, value) :: rest, stop =>
    let (members, stop) := readable s rest stop
    ((key, s.inside value) :: members, stop)

/-- The outermost form. -/
def shape (s : Source) : Shape :=
  match s.document with
  | .whole (.array items) => .list (items.map fun j => s.inside (.whole j)) none
  | .whole (.object members) => .record (members.map fun m => (m.1, s.inside (.whole m.2))) none
  | .whole value | .scalar value => .scalar value
  | .list items stop => .list (items.map s.inside) (stop.map Stop.kept)
  | .record members stop =>
    let (members, stop) := s.readable members (stop.map Stop.kept)
    .record members stop
  | .flawed form stop => .flawed form stop.kept

/-- Refuses to go inside a text that is nested too deep. -/
def enter (s : Source) : Except DecodeError Unit :=
  if s.origin = .text ∧ s.depth ≤ 1 then .error (.flawed .nestedTooDeep) else .ok ()

end Source

/-- Reads data from a source. -/
def Decoder (α : Type) := Source → Except DecodeError α

namespace Decoder

variable {α : Type}

/-- Fails with a flaw if there is one. -/
def stopped : Option Flaw → Except DecodeError Unit
  | none => .ok ()
  | some flaw => .error (.flawed flaw)

/-- The error of a shape that is not what was expected. -/
def mismatch (expected : String) : Shape → DecodeError
  | .flawed _ flaw => .flawed flaw
  | .scalar .null => .invalidType .null expected
  | .scalar (.bool b) => .invalidType (.bool b) expected
  | .scalar (.number n) => .invalidType (.number n) expected
  | .scalar (.text s) => .invalidType (.text s) expected
  | .scalar (.array _) | .list _ _ => .invalidType .list expected
  | .scalar (.object _) | .record _ _ => .invalidType .record expected

/-- Reads a text. -/
def text : Decoder String := fun s =>
  match s.shape with
  | .scalar (.text value) => .ok value
  | shape => .error (mismatch "a string" shape)

/-- Reads any value. -/
def any : Decoder Json := fun s =>
  match s.document.keep s.depth with
  | .ok value => .ok value
  | .error flaw => .error (.flawed flaw)

/-- Reads a value that may be null. -/
def option (decoder : Decoder α) : Decoder (Option α) := fun s =>
  match s.shape with
  | .scalar .null => .ok none
  | .flawed .null flaw => .error (.flawed flaw)
  | _ => some <$> decoder s

/-- Applies a function to what is read. -/
def apply {β : Type} (f : α → β) (decoder : Decoder α) : Decoder β := fun s => f <$> decoder s

/-- Reads a list. -/
def list (decoder : Decoder α) : Decoder (List α) := fun s =>
  match s.shape with
  | .list items stop => do
    s.enter
    let values ← items.mapM decoder
    stopped stop
    return values
  | shape => .error (mismatch "a sequence" shape)

/-- Reads an object as a map; of several members with one key the last counts. -/
def map (decoder : Decoder α) : Decoder (KeyMap α) := fun s =>
  match s.shape with
  | .record members stop => do
    s.enter
    let entries ← members.mapM fun m => do return (m.1, ← decoder m.2)
    stopped stop
    return .ofList entries
  | shape => .error (mismatch "a map" shape)

/-! ## Alternatives -/

/-- The alternative of a name. -/
def choose (variants : List (String × α)) (name : String) : Except DecodeError α :=
  match Entries.find name variants with
  | some a => .ok a
  | none => .error (.unknownVariant name (variants.map (·.1)))

/-- Reads the empty payload of an alternative that is written as an object. -/
def payload (s : Source) : Except DecodeError Unit :=
  match s.shape, s.origin with
  | .scalar .null, _ => .ok ()
  | .record [] none, .aside => .ok ()
  | shape, _ => .error (mismatch "unit" shape)

/-- Reads the name of an alternative or of a tag. -/
def identifier (choose : String → Except DecodeError α) : Decoder α := fun s =>
  match s.shape with
  | .scalar (.text name) => choose name
  | shape => .error (mismatch "variant identifier" shape)

/-- The flaw of an object in a text that has no readable key, given the one that ends the object. -/
def keyless : Option Flaw → Flaw
  | none => .keyNotString
  | some .endInObject => .endInValue
  | some flaw => flaw

/-- Reads a name, alone or as the only key of an object with an empty payload. In a text nothing but
a quote or a brace is looked at, and the key counts before what follows it. -/
def name (choose : String → Except DecodeError α) : Decoder α := fun s =>
  match s.shape, s.origin with
  | .scalar (.text name), _ => choose name
  | .record members stop, .text => do
    s.enter
    match members with
    | [] => throw (.flawed (keyless stop))
    | (key, inner) :: rest =>
      let a ← choose key
      payload inner
      match rest, stop with
      | [], none => return a
      | [], some .endInObject => throw (.flawed .endInObject)
      | _, _ => throw (.flawed .expectedValue)
  | .record [(name, inner)] _, _ => do
    let a ← choose name
    payload inner
    return a
  | .record _ _, _ => .error (.invalidValue .record "map with a single key")
  | .flawed .text flaw, .text | .flawed .nothing flaw, .text => .error (.flawed flaw)
  | _, .text => .error (.flawed .expectedValue)
  | shape, _ => .error (mismatch "string or map" shape)

/-- Reads one of some named alternatives. -/
def variant (variants : List (String × α)) : Decoder α := name (choose variants)

/-! ## Records -/

/-- A problem and its place among the parts of a record. -/
structure Problem where
  place : Nat
  error : DecodeError

/-- The outcome of reading some parts of a record. -/
def Reading (α : Type) := Except Problem α

namespace Reading

variable {β : Type}

/-- Combines two outcomes; of two problems the one that stands first counts. -/
def both (f : Reading (α → β)) (a : Reading α) : Reading β :=
  match f, a with
  | .ok f, .ok a => .ok (f a)
  | .ok _, .error q => .error q
  | .error p, .ok _ => .error p
  | .error p, .error q => .error (if q.place < p.place then q else p)

instance : Applicative Reading where
  pure a := Except.ok a
  seq f a := both f (a ())

/-- The outcome with the place of its problem forgotten. -/
def run (r : Reading α) : Except DecodeError α :=
  match r with
  | .ok a => .ok a
  | .error p => .error p.error

/-- Gives an outcome a place. -/
def located (place : Nat) (r : Except DecodeError α) : Reading α :=
  match r with
  | .ok a => Except.ok a
  | .error e => Except.error ⟨place, e⟩

end Reading

/-- The parts of a record: what it is called, its fields in order, and where they are to be found.
-/
structure Parts where
  what : String
  names : List String
  origin : Origin
  body : List (String × Source) ⊕ List Source
  stop : Option Flaw

namespace Parts

/-- What a list that stands for the record should hold. -/
def expected (p : Parts) : String :=
  p.what ++ " with " ++ toString p.names.length ++
    (if p.names.length = 1 then " element" else " elements")

/-- The members with a key, each with its place. -/
def occurrences (key : String) (members : List (String × Source)) : List (Nat × Source) :=
  members.zipIdx.filterMap fun (m, i) => if m.1 = key then some (i, m.2) else none

/-- Reads a field that has a value when it is missing, or none. -/
def field (p : Parts) (key : String) (decoder : Decoder α) (missing : Option α) : Reading α :=
  let index := p.names.idxOf key
  match p.body with
  | .inl members =>
    match occurrences key members with
    | [] =>
      match missing with
      | some a => pure a
      | none => Except.error ⟨members.length + 1 + index, .missingField key⟩
    | [(i, s)] => .located i (decoder s)
    | (i, s) :: (j, _) :: _ =>
      (fun _ a => a) <$> Reading.located i (decoder s) <*>
        Except.error ⟨j, .duplicateField key⟩
  | .inr items =>
    match items[index]?, missing with
    | some s, _ => .located index (decoder s)
    | none, some a => pure a
    | none, none => Except.error ⟨index, .invalidLength index p.expected⟩

/-- Reads a field that must be there. -/
def required (p : Parts) (key : String) (decoder : Decoder α) : Reading α :=
  p.field key decoder none

/-- Reads a field that may be left out. -/
def defaulted (p : Parts) (key : String) (decoder : Decoder α) (missing : α) : Reading α :=
  p.field key decoder (some missing)

/-- Passes over what is no field: unknown members, surplus items and the end of the record. -/
def others (p : Parts) : Reading Unit :=
  match p.body with
  | .inl members =>
    let unknown := members.zipIdx.filter fun (m, _) => !p.names.contains m.1
    let skipped (m : (String × Source) × Nat) : Reading Unit :=
      match m.1.2.document.skip with
      | .ok _ => pure ()
      | .error flaw => Except.error ⟨m.2, .flawed flaw⟩
    let stopped : Reading Unit := .located members.length (stopped p.stop)
    unknown.foldr (fun m rest => (fun _ _ => ()) <$> skipped m <*> rest) stopped
  | .inr items =>
    let count := p.names.length
    if count < items.length then
      Except.error ⟨count, match p.origin with
        | .text => .flawed .trailingCharacters
        | .value => .invalidLength items.length "fewer elements in array"
        | .aside => .invalidLength items.length
            (toString count ++ (if count = 1 then " element" else " elements") ++ " in sequence")⟩
    else
      match p.stop with
      | none => pure ()
      | some flaw =>
        if items.length < count ∨ flaw = .trailingComma ∨ flaw = .endInList then
          Except.error ⟨items.length, .flawed flaw⟩
        else Except.error ⟨count, .flawed .trailingCharacters⟩

end Parts

/-- Reads a record from an object with its fields, or from a list of them in order. -/
def record (what : String) (names : List String) (read : Parts → Reading α) : Decoder α := fun s =>
  let run (parts : Parts) : Except DecodeError α := do
    s.enter
    ((fun _ a => a) <$> parts.others <*> read parts).run
  match s.shape with
  | .record members stop => run ⟨what, names, s.origin, .inl members, stop⟩
  | .list items stop => run ⟨what, names, s.origin, .inr items, stop⟩
  | shape => .error (mismatch what shape)

/-! ## Tagged alternatives -/

/-- Checks a part that is set aside. -/
def setAside (s : Source) : Except DecodeError Unit :=
  match s.document.keep s.depth with
  | .ok _ => .ok ()
  | .error flaw => .error (.flawed flaw)

/-- The object of some members that are set aside. -/
def asideRecord (depth : Nat) (members : List (String × Source)) : Source :=
  ⟨.aside, depth, .record (members.map fun m => (.ok m.1, m.2.document)) none⟩

/-- Looks through the members of an object for its tag and checks the others in passing. -/
def findTag (tag : String) (choose : String → Except DecodeError α) (found : Option α) :
    List (String × Source) → Except DecodeError (Option α)
  | [] => .ok found
  | (key, s) :: rest =>
    if key = tag then
      match found with
      | some _ => .error (.duplicateField tag)
      | none => do findTag tag choose (some (← identifier choose s)) rest
    else do
      setAside s
      findTag tag choose found rest

/-- Reads an alternative that a tag names: the member `tag` of an object or the first item of a
list. The rest is set aside and then read as the alternative. -/
def tagged (what tag : String) (variants : List (String × Decoder α)) : Decoder α := fun s =>
  match s.shape with
  | .record members stop => do
    s.enter
    let decoder ← findTag tag (choose variants) none members
    stopped stop
    match decoder with
    | none => throw (.missingField tag)
    | some decoder =>
      let rest := members.filter fun m => m.1 ≠ tag
      decoder (asideRecord s.depth rest)
  | .list items stop => do
    s.enter
    match items with
    | [] =>
      stopped stop
      throw (.missingField tag)
    | first :: rest =>
      let decoder ← identifier (choose variants) first
      rest.forM setAside
      stopped stop
      decoder ⟨.aside, s.depth, .list (rest.map (·.document)) none⟩
  | shape => .error (mismatch what shape)

/-! ## Whole documents -/

/-- The nesting that a text may have. -/
def textDepth : Nat := 128

/-- Reads data from a value. -/
def ofJson (decoder : Decoder α) (value : Json) : Except DecodeError α :=
  decoder ⟨.value, textDepth, .whole value⟩

/-- Reads data from a text. -/
def ofText (decoder : Decoder α) (text : String) : Except DecodeError α := do
  let (document, trailing) := Document.ofText text
  let a ← decoder ⟨.text, textDepth, document⟩
  stopped trailing
  return a

end Decoder

end RunParams
