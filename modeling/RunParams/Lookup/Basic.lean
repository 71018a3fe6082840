import RunParams.Credential.Basic
import RunParams.Event
import RunParams.Program
import RunParams.Uuid

/-!
# Looking things up in the stores

Credentials, their secrets and external secrets are kept in stores that are not part of a run. Such
a store may take its time, fail, or answer with something else than was asked for. All that is known
of it is a `Backend`: a response to each query, which may depend on the queries before it.

`fetch` asks the backend and waits for the response, but not longer than a limit allows. A response
that is there at the very tick at which the limit runs out is still taken.
-/

namespace RunParams

/-- Something that a store is asked for. -/
inductive Query where
  /-- The row of a credential, if it belongs to an organization. -/
  | credential (id organization : String)
  /-- The secret of a password credential. -/
  | password (id : String)
  /-- The secret of a credit card. -/
  | creditCard (id : String)
  /-- An external secret. -/
  | secret (key : String)
  deriving DecidableEq, Repr

/-- What a store may answer, none standing for something that is not there. -/
def Query.Answer : Query → Type
  | credential _ _ => Option Credential
  | password _ => Option PasswordSecret
  | creditCard _ => Option CreditCardSecret
  | secret _ => Option String

/-- What a store does when it is asked. -/
structure Response (α : Type) where
  /-- How long it takes. -/
  latency : Duration
  /-- What it then answers, or how it fails. -/
  result : Except BindingError α

/-- The stores: their response to a query after some earlier ones. -/
def Backend := List Query → (q : Query) → Response q.Answer

/-- What all runs of a process share: the stores, the queries made so far, the stream of random ids,
the clock and the log. -/
structure Surroundings where
  backend : Backend
  asked : List Query
  draws : Draws
  /-- The ticks that have passed. -/
  clock : Nat
  log : List Event

namespace Surroundings

/-- Adds events to the log. -/
def logged (s : Surroundings) (events : List Event) : Surroundings :=
  { s with log := s.log ++ events }

/-- Reports an event. -/
def report {ε : Type} (event : Event) : Program Surroundings ε Unit :=
  Program.modify (·.logged [event])

/-- Waits for some ticks; for none it does not even stop. -/
def sleep {ε : Type} (ticks : Nat) : Program Surroundings ε Unit := fun s =>
  if ticks = 0 then .ended s (.ok ())
  else Program.waitFor (.clock (s.clock + ticks)) s

/-- The wording of a query, for whoever waits for the response to it. -/
def describe (asked : String) : Query → String
  | .credential _ _ => "credential " ++ asked
  | .password _ => "password secret " ++ asked
  | .creditCard _ => "credit card secret " ++ asked
  | .secret _ => "external secret " ++ asked

/-- Asks the stores and waits for the response, at most as long as a limit allows. The name is what
an error calls the thing that is asked for. -/
def fetch (limit : Option Duration) (name : String) (q : Query) :
    Program Surroundings BindingError q.Answer := fun s =>
  let response := s.backend s.asked q
  let s := { s with asked := s.asked ++ [q] }
  match limit with
  | none => (sleep response.latency.ticks >>= fun _ => .ofExcept response.result) s
  | some limit =>
    if response.latency.ticks ≤ limit.ticks then
      (sleep response.latency.ticks >>= fun _ => .ofExcept response.result) s
    else (sleep limit.ticks >>= fun _ => .fail (.fetchTimeout (describe name q) limit)) s

end Surroundings

end RunParams
