import WebHarvest.Browser.Layer
import WebHarvest.Program.Schedule

/-!
# Starting and stopping the browser

Starting takes hold of the engine, a browser and a context, one after the other; stopping lets go of
all of them. What is held is a state that outlives a failure, so that a start that fails half way
can be cleaned up.
-/

set_option autoImplicit false

namespace WebHarvest.Browser

/-- An operation that changes what is held. The change stays when the operation fails. -/
abbrev Handling := ExceptT Failure (StateT Held Program)

namespace Handling

variable {α : Type}

def ofAction (action : Action α) : Handling α :=
  ExceptT.mk (StateT.lift action.run)

def take (call : Call) (hold : Held → ResourceId → Held) : Handling Unit := do
  let reply ← ofAction (Action.browser call)
  modify fun held => hold held (numberOf reply)

def call (call : Call) : Handling Unit := do
  let _ ← ofAction (Action.browser call)

def close (resource : Option ResourceId) (closing : ResourceId → Call) : Handling Unit := do
  if let some id := resource then call (closing id)

def attempt (operation : Handling α) : Handling (Except Failure α) :=
  ExceptT.mk (Except.ok <$> operation.run)

/-- Runs an operation by itself, from what is held before to what is held after. -/
def perform {σ : Type} (host : Host σ) (wakeups : Nat) (moment : Moment σ) (held : Held)
    (operation : Handling α) : Moment σ × Held × Except Failure α :=
  match moment.run host wakeups (operation.run.run held) with
  | (moment, some (outcome, held)) => (moment, held, outcome)
  | (moment, none) => (moment, held, .error (.raised .timeout none))

end Handling

/-- Closes what is held, the context first. -/
def release : Handling Unit := do
  let held ← get
  Handling.close held.context .closeContext
  Handling.close held.browser .closeBrowser
  Handling.close held.engine .stopEngine

/-- Lets go of everything. An error of the engine ends the closing, is reported, and is
suppressed. -/
def stop : Handling Unit := do
  let outcome ← release.attempt
  match outcome with
  | .ok () => set ({} : Held)
  | .error failure =>
      if failure.isBrowser then
        Handling.ofAction <| Action.log <|
          structuredError logger .browserCleanupFailed failure.message true .null (.text "stop")
        set ({} : Held)
      else
        set ({} : Held)
        throw failure

def bootstrap (config : HarvesterConfig) (storageState : Option String) : Handling Unit := do
  Handling.take .startEngine fun held id => { held with engine := some id }
  Handling.take (.launch (launchOptions config)) fun held id => { held with browser := some id }
  Handling.take (.newContext (contextOptions config storageState)) fun held id =>
    { held with context := some id }
  Handling.call (.setDefaultTimeout config.timeoutMs)
  if !config.cookies.isEmpty then
    Handling.call (.addCookies (.list (config.cookies.map .record)))

/-- Starts the browser. When the engine fails, everything is let go of. -/
def start (config : HarvesterConfig) (storageState : Option String) : Handling Unit := do
  let outcome ← (bootstrap config storageState).attempt
  match outcome with
  | .ok () =>
      Handling.ofAction <| Action.log <|
        .info logger "Browser started" [("headless", .bool config.headless)]
  | .error failure =>
      if failure.isBrowser then
        stop
        throw <| .harvest .navigation ("Browser bootstrap failed: " ++ failure.message) none
          (some "start") none (some failure)
      else throw failure

end WebHarvest.Browser
