import RunParams.Json.Document

/-!
# Reading JSON text

`Document.ofText` reads one value from the characters of a text and says whether anything but
blanks follows it. The reader never fails: a flaw becomes part of the document.

Every function takes the characters that are left and gives back those that it leaves, or `none`
when a flaw stopped it. The mutual recursion over values, lists and objects is on a bound of the
number of calls; twice the number of characters is always enough, because every second call
consumes a character.
-/

namespace RunParams.Document

/-- The blanks between the parts of a text. -/
def isBlank (c : Char) : Bool :=
  c == ' ' || c == '\n' || c == '\t' || c == '\r'

/-- Drops leading blanks. -/
def skipBlanks (s : List Char) : List Char := s.dropWhile isBlank

/-! ## Words and numbers -/

/-- Reads the rest of a word whose first letter has been read. -/
def readWord : List Char → List Char → Except Flaw (List Char)
  | [], s => .ok s
  | _ :: _, [] => .error .endInValue
  | c :: word, d :: s => if c = d then readWord word s else .error .expectedWord

/-- The number that decimal digits denote. -/
def ofDigits (digits : List Char) : Nat :=
  digits.foldl (fun n c => 10 * n + (c.toNat - '0'.toNat)) 0

/-- Reads one or more digits. A skipping reader takes the end of the text for a wrong character. -/
def readDigits (s : List Char) : Except Stop (List Char × List Char) :=
  match s.span Char.isDigit with
  | ([], []) => .error ⟨.endInValue, some .invalidNumber⟩
  | ([], _ :: _) => .error (.hard .invalidNumber)
  | (digits, rest) => .ok (digits, rest)

/-- Reads the digits before the point: a zero stands alone. -/
def readUnits (s : List Char) : Except Stop (List Char × List Char) :=
  match s with
  | '0' :: rest =>
    if rest.head?.any Char.isDigit then .error (.hard .invalidNumber) else .ok (['0'], rest)
  | _ => readDigits s

/-- Reads the digits after the point, if there is one. -/
def readFraction (s : List Char) : Except Stop (Option (List Char) × List Char) :=
  match s with
  | '.' :: rest => do
    let (digits, rest) ← readDigits rest
    return (some digits, rest)
  | _ => .ok (none, s)

/-- Reads the power of ten after an `e`, if there is one. -/
def readExponent (s : List Char) : Except Stop (Option Int × List Char) :=
  match s with
  | c :: rest =>
    if c = 'e' ∨ c = 'E' then do
      let (negative, rest) := match rest with
        | '+' :: rest => (false, rest)
        | '-' :: rest => (true, rest)
        | _ => (false, rest)
      let (digits, rest) ← readDigits rest
      let size : Int := ofDigits digits
      return (some (if negative then -size else size), rest)
    else .ok (none, s)
  | [] => .ok (none, s)

/-- Adds digits to a number as long as it stays below `2 ^ 64`, and counts those added. -/
def collect (n count : Nat) : List Char → Nat × Nat
  | [] => (n, count)
  | c :: digits =>
    let next := 10 * n + (c.toNat - '0'.toNat)
    if next < 18446744073709551616 then collect next (count + 1) digits else (n, count)

/-- The number with a sign, digits before the point, and maybe a fraction and a power of ten; none
if it is too large. Integers beyond 64 bits and the negative zero are doubles. Of the digits of a
double those that 64 bits cannot hold do not count. -/
def assemble? (negative : Bool) (units : List Char) (fraction : Option (List Char))
    (exponent : Option Int) : Option Number :=
  let (n, count) := collect 0 0 units
  let dropped := units.length - count
  let isInteger := fraction.isNone && exponent.isNone && dropped == 0
  if isInteger ∧ ¬negative then some (.int n)
  else if isInteger ∧ 0 < n ∧ n ≤ 9223372036854775808 then some (.int (-n))
  else
    let (n, places) := collect n 0 (fraction.getD [])
    (Double.ofDecimal? negative n (dropped - places + exponent.getD 0)).map .double

/-- Reads a number after its sign. -/
def readNumber (negative : Bool) (s : List Char) : Document × Option (List Char) :=
  let parts : Except Stop (Option Number × List Char) := do
    let (units, s) ← readUnits s
    let (fraction, s) ← readFraction s
    let (exponent, s) ← readExponent s
    return (assemble? negative units fraction exponent, s)
  match parts with
  | .error stop => (flawed .number stop, none)
  | .ok (none, s) => (flawed .number ⟨.numberOutOfRange, none⟩, some s)
  | .ok (some n, s) => (scalar (.number n), some s)

/-! ## Strings -/

/-- The value of a hexadecimal digit. -/
def hexDigit? (c : Char) : Option Nat :=
  if c.isDigit then some (c.toNat - '0'.toNat)
  else if 'a' ≤ c ∧ c ≤ 'f' then some (c.toNat - 'a'.toNat + 10)
  else if 'A' ≤ c ∧ c ≤ 'F' then some (c.toNat - 'A'.toNat + 10)
  else none

/-- The number of four hexadecimal digits. -/
def hex4? (a b c d : Char) : Option Nat := do
  let a ← hexDigit? a
  let b ← hexDigit? b
  let c ← hexDigit? c
  let d ← hexDigit? d
  return ((a * 16 + b) * 16 + c) * 16 + d

/-- The character of a simple escape. -/
def simpleEscape? : Char → Option Char
  | '"' => some '"'
  | '\\' => some '\\'
  | '/' => some '/'
  | 'b' => some '\x08'
  | 'f' => some '\x0c'
  | 'n' => some '\n'
  | 'r' => some '\r'
  | 't' => some '\t'
  | _ => none

/-- The first half of a surrogate pair. -/
def isHighSurrogate (n : Nat) : Bool := 0xD800 ≤ n ∧ n ≤ 0xDBFF

/-- The second half of a surrogate pair. -/
def isLowSurrogate (n : Nat) : Bool := 0xDC00 ≤ n ∧ n ≤ 0xDFFF

/-- A string as far as it can be read: its characters last first, the first flaw that only matters
to a keeping reader, and the rest after the closing quote or the flaw that ends the reading. -/
structure StringReading where
  characters : List Char
  kept : Option Flaw
  rest : Except Flaw (List Char)

/-- Adds a flaw unless there is an earlier one. -/
def orElse (kept : Option Flaw) (flaw : Flaw) : Option Flaw := kept <|> some flaw

/-- Reads the characters of a string up to the closing quote. `high` is the first half of a
surrogate pair that has just been read; nothing but the second half may follow it. -/
def readCharacters (read : List Char) (kept : Option Flaw) (high : Option Nat) :
    List Char → StringReading
  | [] => ⟨read, kept, .error .endInString⟩
  | '\\' :: 'u' :: a :: b :: c :: d :: s =>
    match hex4? a b c d, high with
    | none, _ => ⟨read, kept, .error .invalidEscape⟩
    | some n, some h =>
      if isLowSurrogate n then
        let c := Char.ofNat (0x10000 + (h - 0xD800) * 0x400 + (n - 0xDC00))
        readCharacters (c :: read) kept none s
      else readCharacters read (orElse kept .unpairedSurrogate) none s
    | some n, none =>
      if isLowSurrogate n then readCharacters read (orElse kept .unpairedSurrogate) none s
      else if isHighSurrogate n then readCharacters read kept (some n) s
      else readCharacters (Char.ofNat n :: read) kept none s
  | '\\' :: 'u' :: s =>
    -- four bytes are taken for the digits, however few characters they make up
    let size := (s.map Char.utf8Size).sum
    ⟨read, kept, .error (if size < 4 then .endInString else .invalidEscape)⟩
  | ['\\'] => ⟨read, kept, .error .endInString⟩
  | c :: s =>
    let kept := if high.isSome then orElse kept .brokenSurrogatePair else kept
    if c = '"' then ⟨read, kept, .ok s⟩
    else if c = '\\' then
      match s with
      | [] => ⟨read, kept, .error .endInString⟩
      | e :: s =>
        match simpleEscape? e with
        | some c => readCharacters (c :: read) kept none s
        | none => ⟨read, kept, .error .invalidEscape⟩
    else if c.toNat < 0x20 then ⟨read, kept, .error .controlCharacter⟩
    else readCharacters (c :: read) kept none s

/-- Reads a string after its opening quote. -/
def readString (s : List Char) : StringReading := readCharacters [] none none s

/-- The text, for a keeping reader. -/
def StringReading.text (r : StringReading) : Except Flaw String :=
  match r.kept, r.rest with
  | some flaw, _ => .error flaw
  | none, .error flaw => .error flaw
  | none, .ok _ => .ok (String.ofList r.characters.reverse)

/-- The flaw that ends the reading, for a skipping reader. -/
def StringReading.skipped (r : StringReading) : Option Flaw :=
  match r.rest with
  | .error flaw => some flaw
  | .ok _ => none

/-- What is left after the closing quote. -/
def StringReading.left (r : StringReading) : Option (List Char) := r.rest.toOption

/-- A string value. -/
def StringReading.document (r : StringReading) : Document :=
  match r.text with
  | .ok text => scalar (.text text)
  | .error kept => flawed .text ⟨kept, r.skipped⟩

/-! ## Values -/

/-- The rest of a word value. -/
def readWordValue (word : List Char) (form : Form) (value : Json) (s : List Char) :
    Document × Option (List Char) :=
  match readWord word s with
  | .ok rest => (scalar value, some rest)
  | .error flaw => (flawed form (.hard flaw), none)

/-- Drops the colon between a key and its value. -/
def readColon (s : List Char) : Except Flaw (List Char) :=
  match skipBlanks s with
  | ':' :: s => .ok s
  | [] => .error .endInObject
  | _ => .error .expectedColon

/-- Where the next item of a list begins, if there is one: at the first character of a list, and
after a comma later. -/
def nextItem (first : Bool) (s : List Char) : Except (Option Stop × List Char) (List Char) :=
  match skipBlanks s with
  | [] => .error (some (.hard .endInList), [])
  | ']' :: s => .error (none, s)
  | c :: s =>
    if first then .ok (c :: s)
    else if c = ',' then
      match skipBlanks s with
      | [] => .error (some (.hard .endInValue), [])
      | ']' :: s => .error (some ⟨.trailingComma, some .expectedValue⟩, s)
      | s => .ok s
    else .error (some (.hard .expectedListEnd), c :: s)

/-- Where the next key of an object begins, if there is one. -/
def nextKey (first : Bool) (s : List Char) : Except (Option Stop × List Char) (List Char) :=
  match skipBlanks s with
  | [] => .error (some (.hard .endInObject), [])
  | '\x7d' :: s => .error (none, s)
  | c :: s =>
    if first then
      if c = '"' then .ok s else .error (some (.hard .keyNotString), c :: s)
    else if c = ',' then
      match skipBlanks s with
      | [] => .error (some ⟨.endInValue, some .endInObject⟩, [])
      | '"' :: s => .ok s
      | '\x7d' :: s => .error (some ⟨.trailingComma, some .keyNotString⟩, s)
      | s => .error (some (.hard .keyNotString), s)
    else .error (some (.hard .expectedObjectEnd), c :: s)

/-- What a reader that has stopped, or has come to an end, leaves. -/
def leave (stop : Option Stop) (s : List Char) : Option (List Char) :=
  if stop.isSome then none else some s

mutual

/-- Reads a value. -/
def readValue : Nat → List Char → Document × Option (List Char)
  | 0, _ => (absent .endInValue, none)
  | bound + 1, s =>
    match skipBlanks s with
    | [] => (absent .endInValue, none)
    | 'n' :: s => readWordValue ['u', 'l', 'l'] .null .null s
    | 't' :: s => readWordValue ['r', 'u', 'e'] .bool (.bool true) s
    | 'f' :: s => readWordValue ['a', 'l', 's', 'e'] .bool (.bool false) s
    | '-' :: s => readNumber true s
    | '"' :: s =>
      let r := readString s
      (r.document, r.left)
    | '[' :: s =>
      let (items, stop, rest) := readItems bound true s
      (list items stop, rest)
    | '\x7b' :: s =>
      let (members, stop, rest) := readMembers bound true s
      (record members stop, rest)
    | c :: s => if c.isDigit then readNumber false (c :: s) else (absent .expectedValue, none)

/-- Reads the items of a list up to its closing bracket; `first` says that none has been read. -/
def readItems : Nat → Bool → List Char → List Document × Option Stop × Option (List Char)
  | 0, _, _ => ([], some (.hard .endInList), none)
  | bound + 1, first, s =>
    match nextItem first s with
    | .error (stop, s) => ([], stop, leave stop s)
    | .ok s =>
      match readValue bound s with
      | (item, none) => ([item], none, none)
      | (item, some s) =>
        let (items, stop, rest) := readItems bound false s
        (item :: items, stop, rest)

/-- Reads the members of an object up to its closing brace; `first` says that none has been read. -/
def readMembers : Nat → Bool → List Char →
    List (Except Flaw String × Document) × Option Stop × Option (List Char)
  | 0, _, _ => ([], some (.hard .endInObject), none)
  | bound + 1, first, s =>
    match nextKey first s with
    | .error (stop, s) => ([], stop, leave stop s)
    | .ok s =>
      let key := readString s
      match key.rest.bind readColon with
      | .error flaw => ([(key.text, absent flaw)], none, none)
      | .ok s =>
        match readValue bound s with
        | (value, none) => ([(key.text, value)], none, none)
        | (value, some s) =>
          let (members, stop, rest) := readMembers bound false s
          ((key.text, value) :: members, stop, rest)

end

/-- Reads the value of a text, and the flaw that something else follows it. -/
def ofText (text : String) : Document × Option Flaw :=
  let s := text.toList
  match readValue (2 * s.length + 2) s with
  | (document, none) => (document, none)
  | (document, some rest) =>
    (document, if (skipBlanks rest).isEmpty then none else some .trailingCharacters)

end RunParams.Document

namespace RunParams.Json

/-- The value of a text. -/
def ofText (text : String) : Except Flaw Json := do
  let (document, trailing) := Document.ofText text
  let value ← document.keep 128
  Document.fails trailing
  return value

end RunParams.Json
