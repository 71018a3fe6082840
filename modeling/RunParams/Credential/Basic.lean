import RunParams.Text.Quoted

/-!
# Credentials

A credential is a row that says to which organization a secret belongs and of which type it is. The
secret itself is kept apart from the row. What is shown of a secret tells no more than the brand of
a card and whether there is a one-time password.
-/

namespace RunParams

/-- An owner of credentials and runs. -/
structure Organization where
  id : String
  name : Option String
  deriving DecidableEq, Repr, Inhabited

/-- The types of credentials. -/
inductive CredentialType where
  | password
  | creditCard
  /-- Any other type; its secrets cannot be used. -/
  | unsupported
  deriving DecidableEq, Repr, Inhabited

/-- The name of a type. -/
def CredentialType.name : CredentialType → String
  | password => "password"
  | creditCard => "credit_card"
  | unsupported => "unsupported"

/-- A credential without its secret. -/
structure Credential where
  id : String
  organization : String
  name : String
  type : CredentialType
  deriving DecidableEq, Repr, Inhabited

/-- The secret of a password credential. -/
structure PasswordSecret where
  username : String
  password : String
  /-- The seed of one-time passwords. -/
  totp : Option String
  deriving DecidableEq, Inhabited

namespace PasswordSecret

/-- The seed of one-time passwords, unless it is empty. -/
def seed? (s : PasswordSecret) : Option String := s.totp.filter (· ≠ "")

/-- What is shown of a password secret. -/
def shown (s : PasswordSecret) : String :=
  "PasswordSecret \x7b username: \"***\", password: \"***\", has_totp: " ++
    toString s.totp.isSome ++ " \x7d"

end PasswordSecret

/-- The secret of a credit card. -/
structure CreditCardSecret where
  number : String
  cvv : String
  expMonth : String
  expYear : String
  brand : String
  holderName : String
  deriving DecidableEq, Inhabited

namespace CreditCardSecret

/-- The fields of a card with their names. -/
def fields (s : CreditCardSecret) : List (String × String) :=
  [("card_number", s.number), ("card_cvv", s.cvv), ("card_exp_month", s.expMonth),
    ("card_exp_year", s.expYear), ("card_brand", s.brand), ("card_holder_name", s.holderName)]

/-- What is shown of a card. -/
def shown (s : CreditCardSecret) : String :=
  "CreditCardSecret \x7b card_brand: " ++ Text.quoted s.brand ++ ", card_number: \"***\", .. \x7d"

end CreditCardSecret

end RunParams
