import RunParams.Lookup.Basic
import RunParams.KeyMap

/-!
# Stores in memory

A backend for dry runs. Credentials and the two kinds of their secrets are kept in tables of their
own, so a credential that is added again with another type keeps its older secret, which the row
then does not lead to any more.
-/

namespace RunParams

/-- The tables of a store in memory, and how long it takes to look something up. -/
structure Memory where
  credentials : KeyMap Credential
  passwords : KeyMap PasswordSecret
  creditCards : KeyMap CreditCardSecret
  secrets : KeyMap String
  credentialLatency : Duration
  secretLatency : Duration

namespace Memory

/-- A store without entries, which takes no time. -/
def empty : Memory := ⟨∅, ∅, ∅, ∅, ⟨0⟩, ⟨0⟩⟩

instance : Inhabited Memory := ⟨empty⟩

/-- Adds the row of a credential. -/
def addCredential (m : Memory) (c : Credential) : Memory :=
  { m with credentials := m.credentials.insert c.id c }

/-- Adds a password credential with its secret. -/
def addPassword (m : Memory) (id organization : String) (secret : PasswordSecret) : Memory :=
  let m := m.addCredential ⟨id, organization, id, .password⟩
  { m with passwords := m.passwords.insert id secret }

/-- Adds a credit card with its secret. -/
def addCreditCard (m : Memory) (id organization : String) (secret : CreditCardSecret) : Memory :=
  let m := m.addCredential ⟨id, organization, id, .creditCard⟩
  { m with creditCards := m.creditCards.insert id secret }

/-- Adds an external secret. -/
def addSecret (m : Memory) (key value : String) : Memory :=
  { m with secrets := m.secrets.insert key value }

/-- The row of a credential if it belongs to an organization. -/
def credential? (m : Memory) (id organization : String) : Option Credential :=
  (m.credentials.get? id).filter fun c => c.organization = organization

/-- The answer to a query. -/
def answer (m : Memory) : (q : Query) → q.Answer
  | .credential id organization => m.credential? id organization
  | .password id => m.passwords.get? id
  | .creditCard id => m.creditCards.get? id
  | .secret key => m.secrets.get? key

/-- How long a query takes. -/
def latency (m : Memory) : Query → Duration
  | .secret _ => m.secretLatency
  | _ => m.credentialLatency

/-- The store as a backend: it never fails. -/
def backend (m : Memory) : Backend := fun _ q => ⟨m.latency q, .ok (m.answer q)⟩

end Memory

end RunParams
