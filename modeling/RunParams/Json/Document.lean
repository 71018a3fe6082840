import RunParams.Json.Basic

/-!
# Documents: JSON as far as it can be read

A reader of typed data reports the first problem that it meets, and a text may break off after
that. So a text is not refused as a whole: a `Document` holds what can be read of it and, where
reading has to stop, the `Flaw` that stops it. A value at hand is a document without flaws.

A reader that keeps a value and one that skips it can meet different flaws: `Document.skip` walks
over an unpaired surrogate or an enormous number, which `Document.keep` refuses, and the two look
for different things after a comma. A `Stop` therefore holds a flaw for each.
-/

namespace RunParams

/-- What is wrong with a text that is not JSON. -/
inductive Flaw where
  | endInList
  | endInObject
  | endInString
  | endInValue
  | expectedColon
  | expectedListEnd
  | expectedObjectEnd
  | expectedWord
  | expectedValue
  | invalidEscape
  | invalidNumber
  | numberOutOfRange
  | controlCharacter
  | keyNotString
  | unpairedSurrogate
  | brokenSurrogatePair
  | trailingComma
  | trailingCharacters
  | nestedTooDeep
  deriving DecidableEq, Repr, Inhabited

namespace Flaw

/-- Whether the text ended too early. -/
def isEnd : Flaw → Bool
  | endInList | endInObject | endInString | endInValue => true
  | _ => false

/-- The wording of a flaw. -/
def message : Flaw → String
  | endInList => "EOF while parsing a list"
  | endInObject => "EOF while parsing an object"
  | endInString => "EOF while parsing a string"
  | endInValue => "EOF while parsing a value"
  | expectedColon => "expected `:`"
  | expectedListEnd => "expected `,` or `]`"
  | expectedObjectEnd => "expected `,` or `\x7d`"
  | expectedWord => "expected ident"
  | expectedValue => "expected value"
  | invalidEscape => "invalid escape"
  | invalidNumber => "invalid number"
  | numberOutOfRange => "number out of range"
  | controlCharacter => "control character (\\u0000-\\u001F) found while parsing a string"
  | keyNotString => "key must be a string"
  | unpairedSurrogate => "lone leading surrogate in hex escape"
  | brokenSurrogatePair => "unexpected end of hex escape"
  | trailingComma => "trailing comma"
  | trailingCharacters => "trailing characters"
  | nestedTooDeep => "recursion limit exceeded"

end Flaw

/-- What a value is, by its first character. -/
inductive Form where
  | null
  | bool
  | number
  | text
  /-- No value begins like this. -/
  | nothing
  deriving DecidableEq, Repr, Inhabited

/-- Where reading has to stop: the flaw that a keeping reader meets, and the one that a skipping
reader meets, unless it can go on. -/
structure Stop where
  kept : Flaw
  skipped : Option Flaw
  deriving DecidableEq, Repr, Inhabited

/-- The stop of a flaw that no reader gets over. -/
def Stop.hard (flaw : Flaw) : Stop := ⟨flaw, some flaw⟩

/-- What can be read of a JSON value. -/
inductive Document where
  /-- A value at hand. -/
  | whole (value : Json)
  /-- A scalar read from a text. -/
  | scalar (value : Json)
  /-- A list read from a text, up to the stop that ends it. -/
  | list (items : List Document) (stop : Option Stop)
  /-- The members of an object in the order of the text, up to the stop that ends them. A key may
  have a flaw of its own. -/
  | record (members : List (Except Flaw String × Document)) (stop : Option Stop)
  /-- A value that cannot be kept. -/
  | flawed (form : Form) (stop : Stop)

namespace Document

instance : Inhabited Document := ⟨scalar .null⟩

/-- A place where no value begins. -/
def absent (flaw : Flaw) : Document := flawed .nothing (.hard flaw)

/-- Fails with a flaw if there is one. -/
def fails : Option Flaw → Except Flaw Unit
  | none => .ok ()
  | some flaw => .error flaw

mutual

/-- The first flaw that stops a reader who skips the value. -/
def skip : Document → Except Flaw Unit
  | whole _ | scalar _ => .ok ()
  | list items stop => do skipItems items; fails (stop.bind Stop.skipped)
  | record members stop => do skipMembers members; fails (stop.bind Stop.skipped)
  | flawed _ stop => fails stop.skipped

/-- `skip` for the items of a list. -/
def skipItems : List Document → Except Flaw Unit
  | [] => .ok ()
  | item :: rest => do skip item; skipItems rest

/-- `skip` for the members of an object, whatever their keys. -/
def skipMembers : List (Except Flaw String × Document) → Except Flaw Unit
  | [] => .ok ()
  | (_, value) :: rest => do skip value; skipMembers rest

end

mutual

/-- The value, if it can be kept; lists and objects may be nested less than `depth` deep. -/
def keep (depth : Nat) : Document → Except Flaw Json
  | whole value | scalar value => .ok value
  | list items stop =>
    if depth ≤ 1 then .error .nestedTooDeep
    else do
      let values ← keepItems (depth - 1) items
      fails (stop.map Stop.kept)
      return .array values
  | record members stop =>
    if depth ≤ 1 then .error .nestedTooDeep
    else do
      let values ← keepMembers (depth - 1) members
      fails (stop.map Stop.kept)
      return .ofMembers values
  | flawed _ stop => .error stop.kept

/-- `keep` for the items of a list. -/
def keepItems (depth : Nat) : List Document → Except Flaw (List Json)
  | [] => .ok []
  | item :: rest => do return (← keep depth item) :: (← keepItems depth rest)

/-- `keep` for the members of an object. -/
def keepMembers (depth : Nat) :
    List (Except Flaw String × Document) → Except Flaw (List (String × Json))
  | [] => .ok []
  | (key, value) :: rest => do
    return (← key, ← keep depth value) :: (← keepMembers depth rest)

end

end Document

end RunParams
