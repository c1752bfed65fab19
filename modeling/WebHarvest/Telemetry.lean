import WebHarvest.Failure

/-!
# Log records and structured errors

Every component reports to a logger of its own below one root. A structured error is a log record
with a fixed message whose extra fields say what failed, where, and whether the failure was
suppressed or went on to the caller.
-/

set_option autoImplicit false

namespace WebHarvest

def rootLogger : String := "domharvest"

def componentLogger (component : String) : String := rootLogger ++ "." ++ component

def logLevels : List (String × Nat) :=
  [("CRITICAL", 50), ("FATAL", 50), ("ERROR", 40), ("WARN", 30), ("WARNING", 30), ("INFO", 20),
    ("DEBUG", 10), ("NOTSET", 0)]

def levelWeight? (name : String) : Option Nat := (logLevels.find? (·.1 == name)).map (·.2)

def levelName (weight : Nat) : String :=
  match weight with
  | 50 => "CRITICAL"
  | 40 => "ERROR"
  | 30 => "WARNING"
  | 20 => "INFO"
  | 10 => "DEBUG"
  | 0 => "NOTSET"
  | _ => "Level " ++ toString weight

structure LogRecord where
  level : Nat
  logger : String
  message : String
  extra : Record := []
  deriving Repr

namespace LogRecord

def debug (logger message : String) (extra : Record := []) : LogRecord :=
  ⟨10, logger, message, extra⟩

def info (logger message : String) (extra : Record := []) : LogRecord :=
  ⟨20, logger, message, extra⟩

def warning (logger message : String) (extra : Record := []) : LogRecord :=
  ⟨30, logger, message, extra⟩

end LogRecord

/-- Canonical codes of structured errors. -/
inductive ErrorCode where
  | operationFailed
  | errorObserverFailed
  | signalSubscriberFailure
  | batchJobFailed
  | progressCallbackFailed
  | browserCleanupFailed
  deriving DecidableEq, Repr

namespace ErrorCode

def all : List ErrorCode :=
  [operationFailed, errorObserverFailed, signalSubscriberFailure, batchJobFailed,
    progressCallbackFailed, browserCleanupFailed]

def name : ErrorCode → String
  | operationFailed => "OPERATION_FAILED"
  | errorObserverFailed => "ERROR_OBSERVER_FAILED"
  | signalSubscriberFailure => "SIGNAL_SUBSCRIBER_FAILURE"
  | batchJobFailed => "BATCH_JOB_FAILED"
  | progressCallbackFailed => "PROGRESS_CALLBACK_FAILED"
  | browserCleanupFailed => "BROWSER_CLEANUP_FAILED"

def ofValue (value : Value) : Except Failure ErrorCode := Failure.member "ErrorCode" all name value

end ErrorCode

def structuredError (logger : String) (code : ErrorCode) (message : String) (suppressed : Bool)
    (target operation : Value := .null) (details : Value := .map []) : LogRecord where
  level := 40
  logger := logger
  message := "domharvest_error"
  extra :=
    [("error_code", .text code.name), ("error_message", .text message),
      ("suppressed", .bool suppressed), ("target", target), ("operation", operation),
      ("details", if details.isEmpty then .map [] else details)]

end WebHarvest
