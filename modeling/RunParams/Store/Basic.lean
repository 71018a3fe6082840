import RunParams.Parameter.Basic

/-!
# The store of a run

A store holds the definitions and the values of a run, both by key. A key has at most one of each,
and either may come without the other: a value may be set that no parameter declares, and a context
parameter is defined before it has a value. Values of secret parameters are handles or objects of
handles.

Definitions have no order of their own. Where they are gone through one by one (`dependents`), the
order of the keys stands for whatever order they come in, so two executions that have the same
definitions go through them alike.
-/

namespace RunParams

/-- The definitions and the values of a run. -/
structure Store where
  definitions : KeyMap Parameter
  values : KeyMap Json

namespace Store

/-- The store without entries. -/
def empty : Store := ⟨∅, ∅⟩

instance : Inhabited Store := ⟨empty⟩

/-- The definition of a key. -/
def definition? (s : Store) (key : String) : Option Parameter := s.definitions.get? key

/-- Whether a key is defined. -/
def isDefined (s : Store) (key : String) : Bool := s.definitions.contains key

/-- The value of a key. -/
def value? (s : Store) (key : String) : Option Json := s.values.get? key

/-- Whether a key has a value. -/
def hasValue (s : Store) (key : String) : Bool := s.values.contains key

/-- Adds a definition, in place of the one that its key has. -/
def define (s : Store) (p : Parameter) : Store :=
  { s with definitions := s.definitions.insert p.key p }

/-- Sets a value, in place of the one that the key has. -/
def set (s : Store) (key : String) (value : Json) : Store :=
  { s with values := s.values.insert key value }

/-- Defines a parameter together with its value. -/
def bind (s : Store) (p : Parameter) (value : Json) : Store := (s.define p).set p.key value

/-- The context parameters with a source. They come in the order of their keys, which stands for an
order that nothing is known of. -/
def dependents (s : Store) (source : Reference) : List ContextParameter :=
  (s.definitions.values.filterMap Parameter.context?).filter fun p => p.source = source

/-- Whether a key is a context parameter that gets its value when a step declares it: one without a
value whose source is no output. -/
def isPending (s : Store) (key : String) : Bool :=
  match s.definition? key with
  | some (.context p) => p.source.kind ≠ .output && !s.hasValue key
  | _ => false

@[simp] theorem value?_set (s : Store) (key other : String) (value : Json) :
    (s.set key value).value? other = if other = key then some value else s.value? other :=
  KeyMap.get?_insert s.values key other value

@[simp] theorem definition?_define (s : Store) (p : Parameter) (key : String) :
    (s.define p).definition? key = if key = p.key then some p else s.definition? key :=
  KeyMap.get?_insert s.definitions p.key key p

@[simp] theorem value?_define (s : Store) (p : Parameter) (key : String) :
    (s.define p).value? key = s.value? key := rfl

@[simp] theorem definition?_set (s : Store) (key other : String) (value : Json) :
    (s.set key value).definition? other = s.definition? other := rfl

@[simp] theorem definitions_set (s : Store) (key : String) (value : Json) :
    (s.set key value).definitions = s.definitions := rfl

@[simp] theorem values_define (s : Store) (p : Parameter) : (s.define p).values = s.values := rfl

/-- Stores that answer alike are equal. -/
theorem ext_get? {s t : Store} (hd : ∀ key, s.definition? key = t.definition? key)
    (hv : ∀ key, s.value? key = t.value? key) : s = t := by
  obtain ⟨sd, sv⟩ := s
  obtain ⟨td, tv⟩ := t
  cases KeyMap.ext_get? hd
  cases KeyMap.ext_get? hv
  rfl

end Store

end RunParams
