import RunParams.Settings
import RunParams.Text.Letters

/-!
# Files with variables of the environment

A file may add variables to the environment, one in a line, as `NAME=value`. A value can be quoted,
and a quoted value can go on over several lines. Single quotes keep all characters as they are;
otherwise a backslash protects the character after it and a dollar sign inserts another variable,
`$NAME` or `$` and the name in braces. A comment begins with a number sign.

Variables that are there already stay as they are. Reading stops at the first line that is
malformed, and what was read before it counts.
-/

namespace RunParams.EnvironmentFile

open RunParams.Text

/-! ## Lines -/

/-- Splits a text into lines, each with the line feed that ends it. -/
def splitLines (line : List Char) : List Char → List (List Char)
  | [] => if line.isEmpty then [] else [line.reverse]
  | '\n' :: rest => ('\n' :: line).reverse :: splitLines [] rest
  | c :: rest => splitLines (c :: line) rest

/-- How the characters of a line stand to quotes, escapes and comments. -/
inductive LineState where
  | complete
  | blank
  | escape
  | strong
  | strongEscape
  | weak
  | weakEscape
  | comment
  deriving DecidableEq, Repr

/-- The state after a character outside of quotes. -/
def LineState.outside (c : Char) : LineState :=
  match c with
  | '\\' => escape
  | '"' => weak
  | '\'' => strong
  | _ => complete

/-- The state after a character. -/
def LineState.next : LineState → Char → LineState
  | blank, '#' => comment
  | blank, c => outside c
  | complete, c => if isWhite c && c ≠ '\n' && c ≠ '\r' then blank else outside c
  | escape, _ => complete
  | weak, '\\' => weakEscape
  | weak, '"' => complete
  | weak, _ | weakEscape, _ => weak
  | strong, '\\' => strongEscape
  | strong, '\'' => complete
  | strong, _ | strongEscape, _ => strong
  | comment, _ => comment

/-- The state at the end of a line, and the line up to a comment. -/
def scanLine (state : LineState) : List Char → LineState × List Char
  | [] => (state, [])
  | c :: rest =>
    match state.next c with
    | .comment => (.comment, [])
    | state =>
      let (last, kept) := scanLine state rest
      (last, c :: kept)

/-- A line without the line feed at its end. -/
def dropEnd (line : List Char) : List Char :=
  match line.reverse with
  | '\n' :: '\r' :: rest | '\n' :: rest => rest.reverse
  | _ => line

/-- Joins lines to entries: a line goes on in the next one while a quote is open. The entry is none
where the last line does not end. -/
def entries (state : LineState) (held : List Char) : List (List Char) → List (Option (List Char))
  | [] => if state = .complete then [] else [none]
  | line :: rest =>
    let whole := held ++ line
    if (whole.dropWhile isWhite).head? = some '#' then some [] :: entries .complete [] rest
    else
      match scanLine state line with
      | (.complete, _) => some (dropEnd whole) :: entries .complete [] rest
      | (.comment, kept) => some (held ++ kept) :: entries .complete [] rest
      | (state, _) => entries state whole rest

/-! ## Values -/

/-- How the characters of a value are read. -/
inductive ValueState where
  | plain
  | weak
  | strong
  /-- After a backslash, in quotes or not. -/
  | escaped (quoted : Bool)
  /-- In a name after a dollar sign, in quotes or not. -/
  | named (quoted : Bool) (name : List Char)
  /-- In a name in braces, in quotes or not. -/
  | braced (quoted : Bool) (name : List Char)
  /-- After the value. -/
  | after
  deriving DecidableEq, Repr

/-- The value of a variable that is inserted, or nothing. -/
def inserted (env : Environment) (name : List Char) : List Char :=
  ((env.get? (String.ofList name)).getD "").toList

/-- The state that goes on with a value, in quotes or not. -/
def ValueState.back (quoted : Bool) : ValueState := if quoted then weak else plain

/-- What a character of a value adds to it, and the state after it; none if it may not stand there.
-/
def ValueState.next (env : Environment) (c : Char) : ValueState → Option (List Char × ValueState)
  | after => if c = ' ' ∨ c = '\t' then some ([], after) else none
  | escaped quoted =>
    if ['\\', '\'', '"', '$', ' '].contains c then some ([c], back quoted)
    else if c = 'n' then some (['\n'], back quoted)
    else none
  | strong => if c = '\'' then some ([], plain) else some ([c], strong)
  | named quoted name =>
    if isLetterOrDigit c then some ([], named quoted (name ++ [c]))
    else if c = '\x7b' ∧ name = [] then some ([], braced quoted [])
    else if c = '$' then some (inserted env name, named quoted [])
    else some (inserted env name ++ [c], back quoted)
  | braced quoted name =>
    if c = '\x7d' then some (inserted env name, back quoted)
    else some ([], braced quoted (name ++ [c]))
  | weak =>
    match c with
    | '$' => some ([], named true [])
    | '"' => some ([], plain)
    | '\\' => some ([], escaped true)
    | c => some ([c], weak)
  | plain =>
    match c with
    | '$' => some ([], named false [])
    | '\'' => some ([], strong)
    | '"' => some ([], weak)
    | '\\' => some ([], escaped false)
    | ' ' | '\t' => some ([], after)
    | c => some ([c], plain)

/-- What is still to be added at the end of a value; none if it may not end there. -/
def ValueState.last (env : Environment) : ValueState → Option (List Char)
  | plain | escaped false | after => some []
  | named false name => some (inserted env name)
  | weak | strong | escaped true | named true _ | braced _ _ => none

/-- Reads a value up to its end or a comment after it. -/
def readValue (env : Environment) (state : ValueState) : List Char → Option (List Char)
  | [] => state.last env
  | c :: rest =>
    if state = .after ∧ c = '#' then some []
    else do
      let (added, state) ← state.next env c
      return added ++ (← readValue env state rest)

/-! ## Variables -/

/-- Whether a character may stand in a name. -/
def isNameChar (c : Char) : Bool := c.isAlphanum || c = '_' || c = '.'

/-- Reads a name and passes over the blanks after it. -/
def readName (line : List Char) : Option (List Char × List Char) :=
  match line with
  | [] => none
  | c :: _ =>
    if c.isAlpha || c = '_' then
      some (line.takeWhile isNameChar, (line.dropWhile isNameChar).dropWhile isWhite)
    else none

/-- Reads the rest of an entry after its name. -/
def readAssigned (env : Environment) (name : List Char) : List Char →
    Option (List Char × List Char)
  | '=' :: rest =>
    match rest.dropWhile isWhite with
    | [] | '#' :: _ => some (name, [])
    | value => (readValue env .plain value).map fun value => (name, value)
  | _ => none

/-- Reads an entry: a variable, perhaps after the word export. -/
def readVariable (env : Environment) (line : List Char) : Option (List Char × List Char) := do
  let (name, rest) ← readName line
  if name = "export".toList ∧ rest.head? ≠ some '=' then
    let (name, rest) ← readName rest
    readAssigned env name rest
  else readAssigned env name rest

/-- Adds the variables of entries to an environment, up to the first that is malformed. -/
def addEntries (env : Environment) : List (Option (List Char)) → Environment
  | [] | none :: _ => env
  | some line :: rest =>
    match (trimRight line).dropWhile isWhite with
    | [] | '#' :: _ => addEntries env rest
    | line =>
      match readVariable env line with
      | none => env
      | some (name, value) =>
        let name := String.ofList name
        addEntries (if env.contains name then env else env.insert name (String.ofList value)) rest

/-- Adds the variables of a file to an environment. A byte order mark at the start does not count.
-/
def load (env : Environment) (text : String) : Environment :=
  let chars := match text.toList with
    | '\uFEFF' :: rest => rest
    | chars => chars
  addEntries env (entries .complete [] (splitLines [] chars))

end RunParams.EnvironmentFile
