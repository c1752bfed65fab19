import WebHarvest.Files.Tree
import WebHarvest.Signal.Basic

/-!
# Emitters

An emitter numbers its signals, keeps the latest of them, appends each to a ledger file when it has
one, and knows its subscribers. Emission counts first, then checks the signal, then retains it, then
writes its line: a signal that is refused leaves a gap in the numbers, and one whose line cannot be
written has already been retained.

Rosters of subscribers are numbered. Subscribing adds to the latest roster, where a delivery that
goes through that roster finds the newcomer; unsubscribing begins a new roster and leaves the
earlier ones to the deliveries that go through them.
-/

set_option autoImplicit false

namespace WebHarvest

/-- An emitter whose subscribers are known by values of type `σ`. -/
structure Emitter (σ : Type) where
  source : String
  ledger : Option String := none
  /-- How many signals are retained. -/
  limit : Nat := 1000
  /-- How many signals have been numbered. -/
  count : Nat := 0
  /-- The retained signals, oldest first. -/
  history : List Signal := []
  /-- The rosters that earlier deliveries may still go through, oldest first. -/
  earlier : List (List σ) := []
  /-- The latest roster. -/
  roster : List σ := []

namespace Emitter

variable {σ : Type}

/-- The number of retained signals: not negative, and small enough for a word. -/
def limitOf (limit : Int) : Except Failure Nat :=
  if !Check.inWord limit then
    .error (.raise .overflow "Python int too large to convert to C ssize_t")
  else if limit < 0 then .error (.value "maxlen must be non-negative")
  else .ok limit.toNat

def create (source : String) (ledger : Option String) (limit : Int) (files : FileTree) :
    FileTree × Except Failure (Emitter σ) :=
  match limitOf limit, ledger with
  | .error failure, _ => (files, .error failure)
  | .ok limit, none => (files, .ok { source, limit })
  | .ok limit, some path =>
      let (files, made) := files.makeDirectories (FilePath.parent path)
      (files, made.map fun _ => { source, ledger, limit })

def latest {α : Type} (limit : Nat) (items : List α) : List α := items.drop (items.length - limit)

def subscribe (emitter : Emitter σ) (subscriber : σ) : Emitter σ :=
  { emitter with roster := emitter.roster ++ [subscriber] }

/-- Begins a roster without a subscriber. -/
def unsubscribe [BEq σ] (emitter : Emitter σ) (subscriber : σ) : Emitter σ :=
  { emitter with
    earlier := emitter.earlier ++ [emitter.roster]
    roster := emitter.roster.filter (· != subscriber) }

def rosterNumber (emitter : Emitter σ) : Nat := emitter.earlier.length

def rosterAt (emitter : Emitter σ) (number : Nat) : List σ :=
  emitter.earlier[number]?.getD emitter.roster

/-- The signal that an emission makes of its arguments. Data that counts as nothing is no data. -/
def signalOf (emitter : Emitter σ) (now : Timestamp) (kind : SignalKind) (payload : Value) :
    Except Failure Signal :=
  let data : Value := if payload.isEmpty then .map [] else payload
  let checked : Checked Signal := Signal.mk (emitter.count + 1) kind now emitter.source
    <$> (Check.record .host data).under (.name "payload")
  checked.validated "Signal"

/-- Writes the line of a signal to the ledger, if there is one. The file is opened, and made if it
is not there, before the line is made up. -/
def writeLine (emitter : Emitter σ) (files : FileTree) (signal : Signal) :
    FileTree × Except Failure Unit :=
  match emitter.ledger with
  | none => (files, .ok ())
  | some path =>
      match files.append path "" with
      | .error failure => (files, .error failure)
      | .ok files =>
          match signal.line.bind (files.append path) with
          | .error failure => (files, .error failure)
          | .ok files => (files, .ok ())

/-- Numbers, checks, retains and writes one signal. The subscribers do not know of it yet. -/
def publish (emitter : Emitter σ) (files : FileTree) (now : Timestamp) (kind : SignalKind)
    (payload : Value) : (Emitter σ × FileTree) × Except Failure Signal :=
  let counted := { emitter with count := emitter.count + 1 }
  match emitter.signalOf now kind payload with
  | .error failure => ((counted, files), .error failure)
  | .ok signal =>
      let retained :=
        { counted with history := latest emitter.limit (emitter.history ++ [signal]) }
      let (files, written) := retained.writeLine files signal
      ((retained, files), written.map fun _ => signal)

end Emitter

/-- The signals of a ledger file; none when there is no such file. -/
def loadLedger (files : FileTree) (now : Timestamp) (path : String) :
    Except Failure (List Signal) := do
  if ← files.exists? path then Signal.ofLedger now (← files.read path) else return []

end WebHarvest
