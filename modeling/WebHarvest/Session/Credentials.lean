import WebHarvest.Config.Check
import WebHarvest.Json.Writer

/-!
# Credentials

A user name and a password. Whatever shows credentials shows the password as a row of stars.
-/

set_option autoImplicit false

namespace WebHarvest

structure Credentials where
  username : String
  password : String

structure LoginSelectors where
  username : String := "input[name=\"username\"], input[type=\"email\"], input[name=\"email\"]"
  password : String := "input[name=\"password\"], input[type=\"password\"]"
  submit : String := "button[type=\"submit\"], input[type=\"submit\"]"
  deriving DecidableEq, Repr

namespace Credentials

open Check

def check (value : Value) : Checked Credentials :=
  (fields "Credentials" .host value).andThen fun entries =>
    mk <$> required entries "username" text <*> required entries "password" text

/-- What is shown of a password: stars, unless it is empty. -/
def masked (password : String) : String := if password.isEmpty then "" else "**********"

/-- The fields in order; the password is masked. -/
def record (credentials : Credentials) : Record :=
  [("username", .text credentials.username), ("password", .text (masked credentials.password))]

def displayFields (credentials : Credentials) (separator : String) : String :=
  "username=" ++ Text.quoted credentials.username ++ separator ++
    "password=SecretStr(" ++ Text.quoted (masked credentials.password) ++ ")"

def display (credentials : Credentials) : String :=
  "Credentials(" ++ credentials.displayFields ", " ++ ")"

/-- The fields without the name of the type. -/
def text (credentials : Credentials) : String := credentials.displayFields " "

def json (credentials : Credentials) : Except Failure String :=
  match Json.write Json.ledgerStyle (.record credentials.record) with
  | .ok text => .ok text
  | .error fault => .error (.notJson fault)

end Credentials

namespace LoginSelectors

open Check

def check (value : Value) : Checked LoginSelectors :=
  (fields "LoginSelectors" .host value).andThen fun entries =>
    let default : LoginSelectors := {}
    mk <$> field entries "username" text (.accepted default.username)
      <*> field entries "password" text (.accepted default.password)
      <*> field entries "submit" text (.accepted default.submit)

def record (selectors : LoginSelectors) : Record :=
  [("username", .text selectors.username), ("password", .text selectors.password),
    ("submit", .text selectors.submit)]

end LoginSelectors

end WebHarvest
