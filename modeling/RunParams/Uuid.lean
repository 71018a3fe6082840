/-!
# Random ids

A `Uuid` is a number of 128 bits, written in hexadecimal digits in five groups. The ids that a
process draws come from a stream: `Draws` holds the stream and how much of it is used up, so that a
computation that draws ids is a function of the stream.
-/

namespace RunParams

/-- An id of 128 bits. -/
structure Uuid where
  value : Fin (Nat.pow 2 128)
  deriving DecidableEq, Repr

namespace Uuid

/-- The id with a version in the highest bits of its third group, the mark of the common layout in
the fourth, and 48, 12 and 62 bits of content. -/
def layout (version first second third : Nat) : Uuid :=
  let mark := Nat.pow 2 63
  let value := (first % Nat.pow 2 48) * Nat.pow 2 80 + (version % 16) * Nat.pow 2 76 +
    (second % Nat.pow 2 12) * Nat.pow 2 64 + mark + third % Nat.pow 2 62
  ⟨⟨value % Nat.pow 2 128, Nat.mod_lt _ (Nat.pow_pos (by decide))⟩⟩

/-- The id of version 4 with the random bits of a number. -/
def random (bits : Nat) : Uuid := layout 4 (bits / Nat.pow 2 74) (bits / Nat.pow 2 62) bits

/-- The id of version 7 for a time in milliseconds and random bits. -/
def timed (millis bits : Nat) : Uuid := layout 7 millis (bits / Nat.pow 2 62) bits

/-- A hexadecimal digit. -/
def digit (n : Nat) : Char := "0123456789abcdef".toList.getD n '0'

/-- The last `count` hexadecimal digits of a number. -/
def digits : (count : Nat) → Nat → List Char
  | 0, _ => []
  | count + 1, n => digits count (n / 16) ++ [digit (n % 16)]

/-- The text of an id: 8, 4, 4, 4 and 12 digits. -/
def render (u : Uuid) : String :=
  let shown := digits 32 u.value.val
  let group (start length : Nat) : List Char := (shown.drop start).take length
  String.ofList (group 0 8 ++ '-' :: group 8 4 ++ '-' :: group 12 4 ++ '-' :: group 16 4 ++
    '-' :: group 20 12)

end Uuid

/-- A stream of ids and the number of those that are used up. -/
structure Draws where
  stream : Nat → Uuid
  next : Nat

namespace Draws

instance : Inhabited Draws := ⟨⟨fun _ => .random 0, 0⟩⟩

/-- The next id. -/
def draw (d : Draws) : Uuid × Draws := (d.stream d.next, { d with next := d.next + 1 })

end Draws

end RunParams
