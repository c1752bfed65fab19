import WebHarvest.Interchange.Value

/-!
# Interchange of failures

A failure that a script prescribes is a mapping with its kind, its message and its context. A
failure that a caller sees is written as a record with its kind and what the kind has to show: a
message and a context, the issues of a validation, or the number of a file fault.
-/

set_option autoImplicit false

namespace WebHarvest.Interchange

/-- The kinds of failures that hosts raise, by name. The failures of the engine are not among them:
they are called like others, so that who prescribes them has to choose names for them. -/
def raisedKind? : String → Option RaisedKind
  | "ValueError" => some .value
  | "RuntimeError" => some .runtime
  | "KeyError" => some .key
  | "TypeError" => some .type
  | "ConnectionError" => some .connection
  | "OSError" => some .os
  | "TimeoutError" => some .timeout
  | "SchemaError" => some .schema
  | "CancelledError" => some .cancelled
  | _ => none

def harvestKind? : String → Option HarvestKind
  | "HarvestError" => some .general
  | "NavigationFailure" => some .navigation
  | "MatchTimeout" => some .matchTimeout
  | "ExtractionFailure" => some .extraction
  | _ => none

/-- The failure that entries prescribe, given the failure underneath. What is neither raised by a
host or the engine nor a harvesting failure with a message is a missing session; its message is the
session's id. -/
def failureOf (engineKind? : String → Option RaisedKind) (spec : Value) (cause : Option Failure) :
    Failure :=
  let kind := (spec.slot "kind").textOf
  let message := spec.text? "message"
  let url := spec.text? "url"
  let selector := spec.text? "selector"
  match engineKind? kind <|> raisedKind? kind, harvestKind? kind with
  | some kind, _ => .raised kind (message.map .text)
  | none, some kind =>
      .harvest kind (message.getD "") url (spec.text? "operation") selector cause
  | none, none =>
      let operation := if (spec.slot? "operation").isSome then spec.text? "operation"
        else some "load_session"
      .sessionNotFound (message.getD "") url operation selector cause

mutual

def readFailure (engineKind? : String → Option RaisedKind) : Value → Failure
  | .map entries => failureOf engineKind? (.map entries) (readCause engineKind? entries)
  | _ => .raised .runtime none

/-- The failure underneath, which stands in the first entry named `cause`. -/
def readCause (engineKind? : String → Option RaisedKind) :
    List (Value × Value) → Option Failure
  | [] => none
  | (.text "cause", .map entries) :: _ =>
      some (failureOf engineKind? (.map entries) (readCause engineKind? entries))
  | _ :: rest => readCause engineKind? rest

end

def writeStep : PlaceStep → Value
  | .name key => .text key
  | .index n => .int n

def writeIssue (issue : Issue) : Value :=
  .record <| [("type", .text issue.cause.code), ("loc", .list (issue.place.map writeStep))] ++
    (if issue.cause == .jsonInvalid then [] else [("msg", .text issue.cause.message)])

def writeFailure (failure : Failure) : Record :=
  match failure with
  | .invalid model issues =>
      [("error", .text failure.kind), ("title", .text model),
        ("errors", .list (issues.map writeIssue))]
  | .malformedJson => [("error", .text failure.kind)]
  | .file fault _ => [("error", .text failure.kind), ("errno", .ofNat fault.number)]
  | failure =>
      [("error", .text failure.kind), ("message", .text failure.message)] ++
        (failure.context?.map fun context => ("context", .record context)).toList

/-- What a caller sees of an operation: its result or its failure. -/
def writeOutcome : Except Failure Value → Record
  | .ok value => [("result", writeValue value)]
  | .error failure => writeFailure failure

end WebHarvest.Interchange
