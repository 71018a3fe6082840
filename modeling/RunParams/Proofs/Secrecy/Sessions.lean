import RunParams.Proofs.Context.Changes
import RunParams.Proofs.Secrecy.Runs

/-!
# Sessions in two worlds

A session is a list of operations on the contexts of a process: they are created, initialized,
changed, read and discarded, and whole runs are performed. What is left out is to reveal a secret.
`session_blind` says that worlds which differ only in secrets cannot be told apart by a session: all
replies are the same, and so is everything that the worlds show in the end.

So no secret finds its way into a value, a message, a handle or a log, on success or failure.
-/

namespace RunParams

/-- What an operation returns. -/
inductive Reply where
  | done (result : Except BindingError Unit)
  | number (result : Except BindingError Nat)
  | truth (answer : Bool)
  | runs (runs : List String)
  | value (result : Except BindingError Json)
  | parameter (definition : Option Parameter)
  | count (number : Nat)
  | notes (fields : KeyMap Json)
  | summary (result : Except Failure Summary)

/-- The reply of a context. -/
def Reading.reply (c : Context) : Reading → Reply
  | value key => .value (c.get key)
  | has key => .truth (c.has key)
  | parameter key => .parameter (c.parameter? key)
  | hasParameter key => .truth (c.hasParameter key)
  | secretCount => .count c.secretCount
  | notes label => .notes (c.notes label)

/-- Contexts with the same view give the same replies. -/
theorem Reading.reply_of_view {c c' : Context} (h : c.view = c'.view) (reading : Reading) :
    reading.reply c = reading.reply c' := by
  have hstore : c.store = c'.store := congrArg Context.View.store h
  have hcount : c.secretCount = c'.secretCount := congrArg Context.View.secretCount h
  have hmetadata : c.metadata = c'.metadata := congrArg Context.View.metadata h
  cases reading <;>
    simp only [reply, Context.get, Context.has, Context.parameter?, Context.hasParameter,
      Context.notes, hstore, hcount, hmetadata]

/-- Something that is asked of the live contexts or of a context with a number. -/
inductive Operation where
  | create (run : String) (organization : Organization) (declarations : Declarations)
  | get (run : String)
  | contains (run : String)
  | runs
  | discard (run : String)
  | discardExpired (maxAge : Duration)
  /-- A change of the live context of a run. -/
  | changeLive (run : String) (change : Change)
  /-- A context in which nothing is bound. -/
  | openContext (run : String) (organization : Organization)
  /-- Binding declarations in a context that is open. -/
  | bindIn (number : Nat) (declarations : Declarations)
  | changeIn (number : Nat) (change : Change)
  | readIn (number : Nat) (reading : Reading)
  /-- A whole run, perhaps with its flag raised before it begins. -/
  | perform (input : RunInput) (cancelled : Bool)

/-- The work of an operation. It does not fail: a failure is part of the reply. -/
def Operation.program (executor : Executor) : Operation → Program World BindingError Reply
  | create run organization declarations => do
    return .number (← (Registry.create run organization declarations).attempt)
  | get run => do return .number (← (Registry.get run).attempt)
  | contains run => do
    .turn
    return .truth (Registry.contains (← .get) run)
  | runs => do
    .turn
    return .runs (Registry.runs (← .get))
  | discard run => do return .truth (← Registry.discard run)
  | discardExpired maxAge => do return .runs (← Registry.discardExpired maxAge)
  | changeLive run change => do return .done (← (Registry.act run change.action).attempt)
  | openContext run organization => do
    return .number (.ok (← World.openContext run organization))
  | bindIn number declarations => do
    return .done (← (World.bindIn number declarations).attempt)
  | changeIn number change => do return .done (← (World.act number change.action).attempt)
  | readIn number reading => do return reading.reply ((← .get).contexts.getD number default)
  | perform input cancelled => do
    let flag := (← .get).flags.length
    .modify fun w => { w with flags := w.flags ++ [cancelled] }
    return .summary (← (input.perform executor flag).attempt)

/-- Operations one after the other, and the replies to them. -/
def session (executor : Executor) : List Operation → Program World BindingError (List Reply)
  | [] => pure []
  | operation :: rest => do
    let reply ← operation.program executor
    return reply :: (← session executor rest)

/-- A change is made alike in alike contexts. -/
theorem Change.action_alike (change : Change) :
    Action.Alike Context.Alike Eq change.action change.action := by
  cases change with
  | register parameters organization => exact Context.register_alike _ _
  | addContext p => exact Context.onStore_alike _
  | record parameter output => exact Context.onStore_alike _
  | set key value =>
    intro c c' h
    refine ⟨.ok rfl, rfl, { h with store := ?_ }⟩
    show c.store.set key value = c'.store.set key value
    rw [h.store]
  | annotate label fields =>
    intro c c' h
    refine ⟨.ok rfl, rfl, { h with metadata := ?_ }⟩
    show c.metadata.insert label ((c.notes label).union fields) =
      c'.metadata.insert label ((c'.notes label).union fields)
    simp only [Context.notes, h.metadata]

/-- A program with equal outcomes in alike worlds gives equal replies. -/
theorem replying_alike {ε α : Type} {p : Program World ε α} (toReply : Except ε α → Reply)
    (h : Program.Alike World.Alike Eq p p) :
    Program.Alike World.Alike Eq
      (p.attempt >>= fun r => (pure (toReply r) : Program World BindingError Reply))
      (p.attempt >>= fun r => pure (toReply r)) := by
  refine h.attempt.bind fun r r' hr => ?_
  rw [resultAlike_eq] at hr
  exact .pure (congrArg toReply hr)

/-- An operation goes alike in alike worlds. -/
theorem Operation.program_alike {executor : Executor} (hb : executor.Blind)
    (operation : Operation) :
    Program.Alike World.Alike Eq (operation.program executor) (operation.program executor) := by
  cases operation with
  | create run organization declarations =>
    exact replying_alike .number (Registry.create_alike _ _ _)
  | get run => exact replying_alike .number (Registry.get_alike run)
  | contains run =>
    refine Program.Alike.waitFor.andThen (Program.Alike.get.bind fun w w' h => .pure ?_)
    rw [Registry.contains, Registry.contains, h.live]
  | runs =>
    refine Program.Alike.waitFor.andThen (Program.Alike.get.bind fun w w' h => .pure ?_)
    rw [Registry.runs, Registry.runs, h.live]
  | discard run =>
    exact (Registry.discard_alike run).bind fun found _ h => .pure (congrArg Reply.truth h)
  | discardExpired maxAge =>
    exact (Registry.discardExpired_alike maxAge).bind fun runs _ h => .pure (congrArg Reply.runs h)
  | changeLive run change =>
    exact replying_alike .done (Registry.act_alike run change.action_alike)
  | openContext run organization =>
    refine (World.openContext_alike run organization).bind fun number _ h => .pure ?_
    rw [h]
  | bindIn number declarations =>
    exact replying_alike .done (World.bindIn_alike number declarations)
  | changeIn number change =>
    exact replying_alike .done (World.act_alike number change.action_alike)
  | readIn number reading =>
    refine Program.Alike.get.bind fun w w' h => .pure ?_
    exact reading.reply_of_view (h.context number).view_eq
  | perform input cancelled =>
    -- As many flags have been raised or not in both worlds, so the run gets the same one.
    refine Program.Alike.get.bind fun w w' h => ?_
    rw [h.flags]
    refine (Program.Alike.modify fun v v' hv => ?_).andThen
      (replying_alike .summary (RunInput.perform_alike hb input _))
    exact { hv with flags := congrArg (· ++ [cancelled]) hv.flags }

/-- A session goes alike in alike worlds, wherever it stops and whatever alike happens there. -/
theorem session_alike {executor : Executor} (hb : executor.Blind) (operations : List Operation) :
    Program.Alike World.Alike Eq (session executor operations) (session executor operations) := by
  induction operations with
  | nil => exact .pure rfl
  | cons operation rest ih =>
    refine (operation.program_alike hb).bind fun reply _ hreply => ?_
    refine ih.bind fun replies _ hreplies => .pure ?_
    rw [hreply, hreplies]

/-- **Secrecy.** Worlds that differ only in secrets cannot be told apart: a session that reveals
nothing, with an executor that reveals nothing, gets the same replies from both, and leaves worlds
with the same log, the same values and definitions, and the same handles. That the two executions go
through equal definitions in the same order, when an output is recorded (`Store.dependents`), is
part of what they have in common: it shows in the order of reports and in which dependent an error
names. -/
theorem session_blind (executor : Executor) (hb : executor.Blind) (operations : List Operation)
    {w w' : World} (h : World.Alike w w') :
    ((session executor operations w).alone World.pass).1 =
        ((session executor operations w').alone World.pass).1 ∧
      World.Alike ((session executor operations w).alone World.pass).2
        ((session executor operations w').alone World.pass).2 := by
  have hruns := session_alike hb operations w w' h
  obtain ⟨hresult, hworld⟩ := hruns.alone fun wait _ _ hw => hw.pass wait
  exact ⟨resultAlike_eq.mp hresult, hworld⟩

/-- A run with a password, a card and an external secret, and a look at the values of another
context that holds them. -/
theorem session_blind_three_secrets :
    let card (number : String) : CreditCardSecret := ⟨number, "123", "12", "2030", "visa", "Alice"⟩
    let world (password seed number token : String) : World :=
      .start .standard (Memory.backend (((Memory.empty.addPassword "site" "acme"
        ⟨"alice", password, some seed⟩).addCreditCard "card" "acme" (card number)).addSecret
        "token" token)) default
    let secrets : List SecretParameter :=
      [.credential (.ofId "login" "site"), .credential (.ofId "pay" "card"),
        .externalSecret (.ofSecret "key" "token")]
    let step : Step := ⟨"buy", secrets.map SecretParameter.toParameter, none⟩
    let session := session echo
      [.perform ⟨"first", ⟨"acme", none⟩, ⟨[], [], [], secrets, [step]⟩, ∅⟩ false,
        .create "second" ⟨"acme", none⟩ ⟨[], [], [], secrets⟩, .readIn 1 (.value "login")]
    Executor.Blind echo ∧
      World.Alike (world "hunter2" "JBSWY3DP" "4242" "t0ken") (world "other" "GEZDGNBV" "1881" "") ∧
      ((session (world "hunter2" "JBSWY3DP" "4242" "t0ken")).alone World.pass).1 =
        ((session (world "other" "GEZDGNBV" "1881" "")).alone World.pass).1 := by
  intro card world secrets step session
  have hworld : World.Alike (world "hunter2" "JBSWY3DP" "4242" "t0ken")
      (world "other" "GEZDGNBV" "1881" "") := by
    refine World.start_alike _ (Memory.Alike.backend ?_) _
    refine Memory.Alike.addSecret ?_ _ _ _
    refine Memory.Alike.addCreditCard ?_ _ _ _ _
    exact Memory.Alike.addPassword (.refl _) _ _ (by decide)
  exact ⟨echo_blind, hworld, (session_blind echo echo_blind _ hworld).1⟩

end RunParams
