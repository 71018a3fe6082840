import RunParams.Double.Basic
import RunParams.KeyMap

/-!
# JSON values

The values that parameters take. A number is an integer, kept exactly, or a double. The members of
an object are an entry list; every operation here keeps the keys sorted and distinct, and
`Json.member?` reads the first entry of a key.
-/

namespace RunParams

/-- A number of a JSON text. -/
inductive Number where
  /-- An integer of 64 bits, written without fraction and exponent. -/
  | int (value : Int)
  /-- Any other number, as far as a double holds it. -/
  | double (value : Double)
  deriving DecidableEq, Repr, Inhabited

/-- Whether the number is zero. -/
def Number.isZero : Number → Bool
  | int value => value == 0
  | double value => value.isZero

/-- A JSON value. -/
inductive Json where
  | null
  | bool (value : Bool)
  | number (value : Number)
  | text (value : String)
  | array (items : List Json)
  | object (members : List (String × Json))
  deriving Repr, Inhabited

namespace Json

/-- The object with the entries of a map. -/
def ofMap (m : KeyMap Json) : Json := object m.entries

/-- The object with some members; of several with one key the last counts. -/
def ofMembers (members : List (String × Json)) : Json := object (Entries.sort members)

/-- An integer as a value. -/
def int (value : Int) : Json := number (.int value)

/-- A count as a value. -/
def nat (value : Nat) : Json := int value

/-- A value that may be missing, with null for a missing one. -/
def option {α : Type} (encode : α → Json) : Option α → Json
  | none => null
  | some a => encode a

/-- The text of a text value. -/
def text? : Json → Option String
  | text s => some s
  | _ => none

/-- The member of an object under a key. -/
def member? : Json → String → Option Json
  | object members, key => Entries.find key members
  | _, _ => none

/-- Whether the value is null. -/
def isNull : Json → Bool
  | null => true
  | _ => false

/-- Whether the value counts as present content: neither null, false, zero nor empty. -/
def isTruthy : Json → Bool
  | null => false
  | bool b => b
  | number n => !n.isZero
  | text s => s ≠ ""
  | array items => !items.isEmpty
  | object members => !members.isEmpty

@[simp] theorem member?_object (members : List (String × Json)) (key : String) :
    (object members).member? key = Entries.find key members := rfl

@[simp] theorem member?_ofMap (m : KeyMap Json) (key : String) :
    (ofMap m).member? key = m.get? key := rfl

end Json

end RunParams
