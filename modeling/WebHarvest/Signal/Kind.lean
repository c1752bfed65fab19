import WebHarvest.Failure

/-!
# Kinds of signals

What a harvester reports to its subscribers and its ledger.
-/

set_option autoImplicit false

namespace WebHarvest

inductive SignalKind where
  | retryAttempt
  | rateLimited
  | extractionComplete
  | operationFailed
  | batchProgress
  | batchComplete
  | sessionSaved
  deriving DecidableEq, Repr

namespace SignalKind

def all : List SignalKind :=
  [retryAttempt, rateLimited, extractionComplete, operationFailed, batchProgress, batchComplete,
    sessionSaved]

def name : SignalKind → String
  | retryAttempt => "RETRY_ATTEMPT"
  | rateLimited => "RATE_LIMITED"
  | extractionComplete => "EXTRACTION_COMPLETE"
  | operationFailed => "OPERATION_FAILED"
  | batchProgress => "BATCH_PROGRESS"
  | batchComplete => "BATCH_COMPLETE"
  | sessionSaved => "SESSION_SAVED"

def ofValue (value : Value) : Except Failure SignalKind :=
  Failure.member "SignalType" all name value

end SignalKind

end WebHarvest
