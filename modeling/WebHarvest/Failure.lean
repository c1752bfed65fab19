import WebHarvest.Config.Issue
import WebHarvest.Json.Writer
import WebHarvest.Number.Numeral
import WebHarvest.Schema.Fault

/-!
# Failures

Everything that can end an operation. Harvesting failures carry their context: the target, the
operation, the selector and the failure underneath. Failures of the host and of the browser engine
carry an argument, and the failures that the library finds in its input carry their cause. The kind
of a failure is the name that retry policies match against.
-/

set_option autoImplicit false

namespace WebHarvest

/-- The taxonomy of harvesting failures. -/
inductive HarvestKind where
  | general
  /-- Navigation or browser bootstrap failed. -/
  | navigation
  /-- The expected page state never appeared within the timeout. -/
  | matchTimeout
  /-- A schema or a function failed while it ran in the page. -/
  | extraction
  /-- No durable record exists for a session id. -/
  | sessionNotFound (id : String)
  deriving DecidableEq, Repr

def HarvestKind.name : HarvestKind → String
  | .general => "HarvestError"
  | .navigation => "NavigationFailure"
  | .matchTimeout => "MatchTimeout"
  | .extraction => "ExtractionFailure"
  | .sessionNotFound _ => "SessionNotFound"

/-- Failures that hosts and the browser engine raise. -/
inductive RaisedKind where
  | value
  | runtime
  | key
  | type
  | connection
  | os
  | timeout
  | schema
  | attribute
  | overflow
  /-- Not an ordinary failure: nothing catches, retries or reports it. -/
  | cancelled
  /-- The browser engine. -/
  | browser
  /-- The browser engine ran out of time; also an error of the engine. -/
  | browserTimeout
  deriving DecidableEq, Repr

/-- The name of a kind of raised failure; the engine's kinds are called like others. -/
def RaisedKind.name : RaisedKind → String
  | .value => "ValueError"
  | .runtime => "RuntimeError"
  | .key => "KeyError"
  | .type => "TypeError"
  | .connection => "ConnectionError"
  | .os => "OSError"
  | .timeout => "TimeoutError"
  | .schema => "SchemaError"
  | .attribute => "AttributeError"
  | .overflow => "OverflowError"
  | .cancelled => "CancelledError"
  | .browser => "Error"
  | .browserTimeout => "TimeoutError"

/-- What a file system refuses. -/
inductive FileFault where
  | notFound
  | alreadyExists
  | notADirectory
  | isADirectory
  | nameTooLong
  deriving DecidableEq, Repr

namespace FileFault

def name : FileFault → String
  | notFound => "FileNotFoundError"
  | alreadyExists => "FileExistsError"
  | notADirectory => "NotADirectoryError"
  | isADirectory => "IsADirectoryError"
  | nameTooLong => "OSError"

def number : FileFault → Nat
  | notFound => 2
  | alreadyExists => 17
  | notADirectory => 20
  | isADirectory => 21
  | nameTooLong => 36

def text : FileFault → String
  | notFound => "No such file or directory"
  | alreadyExists => "File exists"
  | notADirectory => "Not a directory"
  | isADirectory => "Is a directory"
  | nameTooLong => "File name too long"

end FileFault

/-- Why an operation ended without a result. -/
inductive Failure where
  | harvest (kind : HarvestKind) (message : String) (url operation selector : Option String)
      (cause : Option Failure)
  | raised (kind : RaisedKind) (argument : Option Value)
  | schema (fault : Schema.Fault)
  | invalid (model : String) (issues : List Issue)
  /-- A cookie file that is not JSON. -/
  | malformedJson
  | notJson (fault : Json.Fault)
  | file (fault : FileFault) (path : String)
  deriving Inhabited

namespace Failure

def raise (kind : RaisedKind) (message : String) : Failure := .raised kind (some (.text message))

def value (message : String) : Failure := raise .value message

/-- An integer with more digits than the limit for numerals allows. -/
def tooManyDigits (digits : Nat) : Failure :=
  value ("Exceeds the limit (" ++ toString Numeral.digitLimit ++
    " digits) for integer string conversion: value has " ++ toString digits ++
    " digits; use sys.set_int_max_str_digits() to increase the limit")

def member {α : Type} (enumeration : String) (members : List α) (name : α → String)
    (given : Value) : Except Failure α :=
  match members.find? fun member => given.asText? == some (name member) with
  | some member => .ok member
  | none => .error (value (given.display ++ " is not a valid " ++ enumeration))

def type (message : String) : Failure := raise .type message

def ofSchema {α : Type} (outcome : Except Schema.Fault α) : Except Failure α :=
  outcome.mapError .schema

def kind : Failure → String
  | .harvest kind .. => kind.name
  | .raised kind _ => kind.name
  | .schema fault => if fault.isOfType then "TypeError" else "SchemaError"
  | .invalid .. => "ValidationError"
  | .malformedJson => "JSONDecodeError"
  | .notJson fault => if fault.isOfType then "TypeError" else "PydanticSerializationError"
  | .file fault _ => fault.name

/-- The text of a failure. A missing key is shown as a value, in quotes. -/
def message : Failure → String
  | .harvest _ message .. => message
  | .raised .key (some argument) => argument.display
  | .raised _ (some (.text message)) => message
  | .raised _ (some argument) => argument.display
  | .raised _ none => ""
  | .schema fault => fault.message
  | .invalid .. => ""
  | .malformedJson => ""
  | .notJson fault => fault.message
  | .file fault path =>
      "[Errno " ++ toString fault.number ++ "] " ++ fault.text ++ ": " ++ Text.quoted path

def display : Failure → String
  | .raised kind none => kind.name ++ "()"
  | .raised kind (some argument) => kind.name ++ "(" ++ argument.display ++ ")"
  | .file fault _ =>
      fault.name ++ "(" ++ toString fault.number ++ ", " ++ Text.quoted fault.text ++ ")"
  | failure => failure.kind ++ "(" ++ Text.quoted failure.message ++ ")"

/-- Handlers see every failure but a cancellation. -/
def isOrdinary : Failure → Bool
  | .raised .cancelled _ => false
  | _ => true

def isBrowser : Failure → Bool
  | .raised .browser _ => true
  | .raised .browserTimeout _ => true
  | _ => false

def isBrowserTimeout : Failure → Bool
  | .raised .browserTimeout _ => true
  | _ => false

def context? : Failure → Option Record
  | .harvest kind _ url operation selector cause =>
      some [("url", .ofText? url), ("operation", .ofText? operation),
        ("selector", .ofText? selector), ("error_kind", .text kind.name),
        ("cause", .ofText? (cause.map display))]
  | _ => none

/-- No durable record exists for a session id. -/
def sessionNotFound (id : String) (url : Option String := none)
    (operation : Option String := some "load_session") (selector : Option String := none)
    (cause : Option Failure := none) : Failure :=
  .harvest (.sessionNotFound id) ("Session not found: " ++ id) url operation selector cause

end Failure

end WebHarvest
