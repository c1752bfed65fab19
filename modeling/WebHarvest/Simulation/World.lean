import WebHarvest.Logging
import WebHarvest.Program.Schedule
import WebHarvest.Retry
import WebHarvest.Session.Store
import WebHarvest.Signal.Emitter
import WebHarvest.Simulation.Engine

/-!
# A simulated world

A deterministic host: a virtual clock, a rate limiter, an emitter, a file tree with a session store,
a simulated engine, and scripts for the operations that the host runs by name. It keeps a record of
everything that programs do.
-/

set_option autoImplicit false

namespace WebHarvest.Simulation

/-- How a callback of the host behaves. Every callback but an absent one records its arguments. -/
inductive CallbackMode where
  | absent
  | records
  | fails
  /-- It fails after it has been waited for. -/
  | failsLater
  deriving DecidableEq, Repr

inductive TraceEntry where
  | started (operation : String)
  | ended (operation : String)
  | failed (operation : String) (failure : Failure)

structure Events where
  logs : List LogRecord := []
  signals : List Signal := []
  /-- The pauses that were asked for. -/
  sleeps : List Int := []
  observed : List (Failure × List (Value × Value)) := []
  progress : List (Nat × Nat) := []
  trace : List (Int × TraceEntry) := []

/-- The state of a simulated world, whose clock is read on the scale `τ`. -/
structure World (τ : Type) where
  limiter : RateLimit.Limiter τ := {}
  /-- Pauses of the limiter that are longer than this end so much earlier. -/
  skew : Int := 0
  /-- Signals reach an emitter, whose subscribers record them. -/
  emitter : Option (Emitter Unit) := none
  /-- The time of the calendar at which the clock started. -/
  epoch : Int := 0
  files : FileTree := {}
  store : SessionStore := {}
  engine : Engine := {}
  operations : Script := []
  operationResult : Value := .null
  observer : CallbackMode := .absent
  progress : CallbackMode := .absent
  loggers : LoggerTree := {}
  recordsPauses : Bool := true
  /-- How many jobs have settled, for every count that was begun. -/
  settled : List Nat := []
  events : Events := {}

namespace World

variable {τ : Type}

def withEvents (world : World τ) (update : Events → Events) : World τ :=
  { world with events := update world.events }

def log (world : World τ) (records : List LogRecord) : World τ :=
  world.withEvents fun events =>
    { events with logs := events.logs ++ records.filter world.loggers.accepts }

def calendar (world : World τ) (now : Int) : Timestamp := .ofMicros (world.epoch + now)

def emit (world : World τ) (now : Int) (kind : SignalKind) (payload : List (Value × Value)) :
    World τ × Except Failure Unit :=
  match world.emitter with
  | none => (world, .ok ())
  | some emitter =>
      let ((emitter, files), outcome) :=
        emitter.publish world.files (world.calendar now) kind (.map payload)
      let world := { world with emitter := some emitter, files }
      match outcome with
      | .error failure => (world, .error failure)
      | .ok signal =>
          (world.withEvents fun events => { events with signals := events.signals ++ [signal] },
            .ok ())

def limiterLogger : String := componentLogger "resilience.rate_limiter"

/-- Asks the limiter for a slot. When there is none, this is logged and announced, and the request
is put off. -/
def takeSlot [TimeScale τ] (world : World τ) (now : Int) (scope : RateLimit.Scope)
    (target : String) : World τ × Answer (World τ) (Except Failure Unit) :=
  let reading : τ := TimeScale.reading now
  match world.limiter.poll scope reading reading with
  | (limiter, .error failure) => ({ world with limiter }, .now (.error failure))
  | (limiter, .ok none) => ({ world with limiter }, .now (.ok ()))
  | (limiter, .ok (some delay)) =>
      let millis := TimeScale.millis delay
      let world := { world with limiter }.log
        [.debug limiterLogger
          ("Rate limit reached for " ++ scope.name ++ " scope, waiting " ++ toString millis ++ "ms")
          [("url", .text target), ("scope", .text scope.name)]]
      match world.emit now .rateLimited
          [(.text "scope", .text scope.name), (.text "url", .text target),
            (.text "wait_ms", .int millis)] with
      | (world, .error failure) => (world, .now (.error failure))
      | (world, .ok ()) =>
          match TimeScale.pause delay with
          | .error failure => (world, .now (.error failure))
          | .ok pause =>
              (world.withEvents fun events => { events with sleeps := events.sleeps ++ [pause] },
                .putOff (if world.skew < pause then pause - world.skew else pause))

def pauseFor [TimeScale τ] (world : World τ) (millis : Int) :
    World τ × Answer (World τ) (Except Failure Unit) :=
  match (TimeScale.span millis : Except Failure τ).bind TimeScale.pause with
  | .error failure => (world, .now (.error failure))
  | .ok pause =>
      let world := if world.recordsPauses then
          world.withEvents fun events => { events with sleeps := events.sleeps ++ [pause] }
        else world
      (world, .later pause fun _ world => (world, .ok ()))

def callback (mode : CallbackMode) (failure laterFailure : Failure) :
    Except Failure Unit :=
  match mode with
  | .fails => .error failure
  | .failsLater => .error laterFailure
  | _ => .ok ()

/-- Shows a failure to the error observer, if there is one; it may fail itself. -/
def observe (world : World τ) (failure : Failure) (details : List (Value × Value)) :
    World τ × Except Failure Unit :=
  (world.withEvents fun events =>
      if world.observer == .absent then events
      else { events with observed := events.observed ++ [(failure, details)] },
    callback world.observer (.raise .runtime "observer broke")
      (.raise .runtime "async observer broke"))

def advanceProgress (world : World τ) (completed total : Nat) :
    World τ × Except Failure Unit :=
  (world.withEvents fun events =>
      { events with progress := events.progress ++ [(completed, total)] },
    callback world.progress
      (.raise .runtime ("progress broke at " ++ toString completed))
      (.raised .key (some (.ofNat completed))))

def traced (world : World τ) (now : Int) (entry : TraceEntry) : World τ :=
  world.withEvents fun events => { events with trace := events.trace ++ [(now, entry)] }

/-- Answers now, or after a delay if there is one. -/
def after {ρ : Type} (delay : Option Int) (now : Int) (world : World τ)
    (finish : Int → World τ → World τ × ρ) : World τ × Answer (World τ) ρ :=
  match delay with
  | some delay => (world, .later delay finish)
  | none =>
      let (world, reply) := finish now world
      (world, .now reply)

def finishTurn (operation : String) (turn : Turn) (now : Int) (world : World τ) :
    World τ × Except Failure Value :=
  match turn.outcome.getD (.ok world.operationResult) with
  | .ok result => (world.traced now (.ended operation), .ok result)
  | .error failure =>
      (if failure.isOrdinary then world.traced now (.failed operation failure) else world,
        .error failure)

def perform (world : World τ) (now : Int) (operation : String) :
    World τ × Answer (World τ) (Except Failure Value) :=
  let world := world.traced now (.started operation)
  let (turn, operations) := world.operations.next operation
  after turn.delay now { world with operations } (finishTurn operation turn)

def call (world : World τ) (now : Int) (call : Browser.Call) :
    World τ × Answer (World τ) (Except Failure Value) :=
  let (turn, engine) := world.engine.begin now call
  after turn.delay now { world with engine } fun _ world =>
    let (engine, reply) := world.engine.finish call turn
    ({ world with engine }, reply)

private def change (world : World τ) (edit : FileTree → Except Failure FileTree) :
    World τ × Except Failure Unit :=
  match edit world.files with
  | .ok files => ({ world with files }, .ok ())
  | .error failure => (world, .error failure)

def access {α : Type} (world : World τ) (operation : Session.Access α) :
    World τ × Except Failure α :=
  let (outcome, desk) := operation.run.run { store := world.store, files := world.files }
  ({ world with store := desk.store, files := desk.files }.log desk.log, outcome)

def reply {ρ : Type} (outcome : World τ × ρ) : World τ × Answer (World τ) ρ :=
  (outcome.1, .now outcome.2)

def answer [TimeScale τ] (request : Request) (now : Int) (world : World τ) :
    World τ × Answer (World τ) request.Reply :=
  match request with
  | .now => (world, .now now)
  | .elapsed since => (world, .now (TimeScale.elapsed τ since now))
  | .pause millis => pauseFor world millis
  | .log record => (world.log [record], .now ())
  | .emit kind payload => reply (world.emit now kind payload)
  | .takeSlot scope target => takeSlot world now scope target
  | .observe failure details => reply (world.observe failure details)
  | .beginCount => ({ world with settled := world.settled ++ [0] }, .now world.settled.length)
  | .countSettled number =>
      let settled := world.settled.modify number (· + 1)
      ({ world with settled }, .now (settled[number]?.getD 0))
  | .progress completed total => reply (world.advanceProgress completed total)
  | .perform operation => world.perform now operation
  | .browser browserCall => world.call now browserCall
  | .pageUrl page => (world, .now (world.engine.urlOf page))
  | .makeParents path =>
      let (files, outcome) := world.files.makeDirectories
        (FilePath.parent (FilePath.normalize path))
      ({ world with files }, .now outcome)
  | .writeFile path text => reply (world.change (·.write path text))
  | .readFile path => (world, .now (world.files.read path))
  | .saveSession id state => reply (world.access (Session.save id state))
  | .loadSession id => reply (world.access do return .record (← Session.load id).record)
  | .sessionPath id => reply (world.access (Session.pathOf id))

def host [TimeScale τ] : Host (World τ) := ⟨answer⟩

theorem host_writeFile_of_ok [TimeScale τ] {world : World τ} {path text : String}
    {files : FileTree} (written : world.files.write path text = .ok files) (now : Int) :
    host.answer (.writeFile path text) now world = ({ world with files }, .now (.ok ())) := by
  simp only [host, answer, change, written, reply]

theorem host_writeFile_of_error [TimeScale τ] {world : World τ} {path text : String}
    {failure : Failure} (refused : world.files.write path text = .error failure) (now : Int) :
    host.answer (.writeFile path text) now world = (world, .now (.error failure)) := by
  simp only [host, answer, change, refused, reply]

end World

end WebHarvest.Simulation
