import WebHarvest.Json.Plain
import WebHarvest.Json.Reader
import WebHarvest.Signal.Kind
import WebHarvest.Timestamp

/-!
# Signals

A signal is one event that a harvester reports: its place in the sequence, its kind, its time, its
source and some data. Signals are checked like any other input, whether they are new or come from a
ledger line.
-/

set_option autoImplicit false

namespace WebHarvest

structure Signal where
  sequence : Int
  kind : SignalKind
  timestamp : Timestamp
  source : String
  payload : Record := []

namespace Signal

open Check

/-- Checks a signal; a missing time is the present one. -/
def check (form : InputForm) (now : Timestamp) (value : Value) : Checked Signal :=
  (fields "Signal" form value).andThen fun entries =>
    mk <$> required entries "sequence" int
      <*> required entries "signal_type" (enumeration SignalKind.all SignalKind.name)
      <*> field entries "timestamp" Timestamp.check (.accepted now)
      <*> required entries "source" text
      <*> field entries "payload" (Check.record form) (.accepted [])

/-- The entries of a ledger line that stand before the payload. -/
def header (signal : Signal) : Record :=
  [("sequence", .int signal.sequence), ("signal_type", .text signal.kind.name),
    ("timestamp", .text signal.timestamp.ledgerText), ("source", .text signal.source)]

def line (signal : Signal) : Except Failure String :=
  Except.mapError .notJson do
    let payload ← Json.plainRecord signal.payload
    let entries := signal.header ++ [("payload", payload)]
    return (← Json.write Json.ledgerStyle (.record entries)) ++ "\n"

def ofLine (now : Timestamp) (text : String) : Except Failure Signal :=
  (match Json.read .guarded text with
    | .ok value => check .json now value
    | .error _ => Checked.fail .jsonInvalid).validated "Signal"

def isLineEnd (c : Char) : Bool := c == '\n' || c == '\r'

/-- The signals of the lines of a ledger; blank lines do not count. A line ends at a line feed, or
at a carriage return with or without a line feed behind it. -/
def ofLedger (now : Timestamp) (text : String) : Except Failure (List Signal) :=
  let lines := (text.toList.splitOnP isLineEnd).map String.ofList
  ((lines.map Text.trim).filter fun line => !line.isEmpty).mapM (ofLine now)

end Signal

end WebHarvest
