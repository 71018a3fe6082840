import RunParams.Context.Register

/-!
# Changes and readings of a context

Everything that a run does to its context after its declarations are bound is a `Change`, and
everything that it learns from its context, short of a secret, is the reply to a `Reading`. A change
may fail; what it has done before that stays done, so a run of changes goes on from the state that
each of them leaves (`Context.changed`).
-/

namespace RunParams

/-- Something that is done to a context. -/
inductive Change where
  | register (parameters : List Parameter) (organization : String)
  | addContext (p : ContextParameter)
  | record (parameter : OutputParameter) (output : Json)
  | set (key : String) (value : Json)
  | annotate (label : String) (fields : KeyMap Json)

/-- The work of a change. -/
def Change.action : Change → Action Context Unit
  | register parameters organization => Context.register parameters organization
  | addContext p => Context.addContext p
  | record parameter output => Context.recordOutput parameter output
  | set key value => .modify fun c => c.set key value
  | annotate label fields => .modify fun c => c.annotate label fields

/-- The context after a change, be it successful or not. -/
def Context.change (c : Context) (change : Change) : Context := (change.action c).state

/-- The context after some changes. -/
def Context.changed (c : Context) (changes : List Change) : Context :=
  changes.foldl Context.change c

/-- What a context returns for a key is the value of the key. -/
theorem Context.get_eq_ok_iff {c : Context} {key : String} {value : Json} :
    c.get key = .ok value ↔ c.store.value? key = some value := by
  unfold get
  cases c.store.value? key with
  | none => simp
  | some found => simp

/-- Something that a context is asked. -/
inductive Reading where
  | value (key : String)
  | has (key : String)
  | parameter (key : String)
  | hasParameter (key : String)
  | secretCount
  | notes (label : String)

end RunParams
