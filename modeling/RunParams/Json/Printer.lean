import RunParams.Double.Shortest
import RunParams.Json.Basic

/-!
# Writing JSON text

Two layouts of one grammar: `Json.compact` without blanks, and `Json.pretty` with one item or member
a line, two spaces a level. Members are written in the order of the object.
-/

namespace RunParams

/-- The text of a double by its shortest decimal: with a point if the first digit stands at most
five places after the point or the last one at most sixteen before it, else with a power of ten. -/
def Double.render (x : Double) : String :=
  let d := x.shortest
  let shown := (toString d.digits).toList
  let sign := if x.negative then "-" else ""
  -- the number of digits before the point
  let point := d.exponent + shown.length
  let magnitude : List Char :=
    if 0 ≤ d.exponent ∧ point ≤ 16 then
      shown ++ List.replicate d.exponent.toNat '0' ++ ['.', '0']
    else if 0 < point ∧ point ≤ 16 then
      shown.take point.toNat ++ '.' :: shown.drop point.toNat
    else if -5 < point ∧ point ≤ 0 then
      ['0', '.'] ++ List.replicate point.natAbs '0' ++ shown
    else
      let power := (if 0 < point then "e+" else "e-") ++ toString (point - 1).natAbs
      match shown with
      | [digit] => digit :: power.toList
      | shown => shown.take 1 ++ '.' :: shown.drop 1 ++ power.toList
  sign ++ String.ofList magnitude

/-- The text of a number. -/
def Number.render : Number → String
  | int value => toString value
  | double value => value.render

namespace Json

/-- A hexadecimal digit in lower case. -/
def hexDigit (n : Nat) : Char :=
  if n < 10 then Char.ofNat ('0'.toNat + n) else Char.ofNat ('a'.toNat + (n - 10))

/-- A character inside a quoted string: quotes, backslashes and control characters are escaped. -/
def escape (c : Char) : List Char :=
  match c with
  | '"' => ['\\', '"']
  | '\\' => ['\\', '\\']
  | '\x08' => ['\\', 'b']
  | '\x0c' => ['\\', 'f']
  | '\n' => ['\\', 'n']
  | '\r' => ['\\', 'r']
  | '\t' => ['\\', 't']
  | c =>
    if c.toNat < 0x20 then ['\\', 'u', '0', '0', hexDigit (c.toNat / 16), hexDigit (c.toNat % 16)]
    else [c]

/-- A quoted string. -/
def quote (s : String) : String :=
  "\"" ++ String.ofList (s.toList.flatMap escape) ++ "\""

mutual

/-- The text without blanks. -/
def compact : Json → String
  | null => "null"
  | bool b => if b then "true" else "false"
  | number n => n.render
  | text s => quote s
  | array items => "[" ++ compactItems items ++ "]"
  | object members => "\x7b" ++ compactMembers members ++ "\x7d"

/-- The items of a list, with commas. -/
def compactItems : List Json → String
  | [] => ""
  | [item] => compact item
  | item :: rest => compact item ++ "," ++ compactItems rest

/-- The members of an object, with commas. -/
def compactMembers : List (String × Json) → String
  | [] => ""
  | [(key, value)] => quote key ++ ":" ++ compact value
  | (key, value) :: rest => quote key ++ ":" ++ compact value ++ "," ++ compactMembers rest

end

/-- A new line at a level. -/
def newLine (level : Nat) : String := "\n".pushn ' ' (2 * level)

mutual

/-- The text with one item or member a line, at a level. -/
def prettyAt (level : Nat) : Json → String
  | array (item :: rest) =>
    "[" ++ prettyItems (level + 1) (item :: rest) ++ newLine level ++ "]"
  | object ((key, value) :: rest) =>
    "\x7b" ++ prettyMembers (level + 1) ((key, value) :: rest) ++ newLine level ++ "\x7d"
  | value => compact value

/-- The items of a list, each on a line of its own. -/
def prettyItems (level : Nat) : List Json → String
  | [] => ""
  | [item] => newLine level ++ prettyAt level item
  | item :: rest => newLine level ++ prettyAt level item ++ "," ++ prettyItems level rest

/-- The members of an object, each on a line of its own. -/
def prettyMembers (level : Nat) : List (String × Json) → String
  | [] => ""
  | [(key, value)] => newLine level ++ quote key ++ ": " ++ prettyAt level value
  | (key, value) :: rest =>
    newLine level ++ quote key ++ ": " ++ prettyAt level value ++ "," ++ prettyMembers level rest

end

/-- The text with one item or member a line. -/
def pretty (value : Json) : String := prettyAt 0 value

end Json

end RunParams
