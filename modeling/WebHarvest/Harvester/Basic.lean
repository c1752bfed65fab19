import WebHarvest.Batch
import WebHarvest.Browser.Lifecycle
import WebHarvest.Harvester.Attempt
import WebHarvest.Schema.Compile
import WebHarvest.Session.Login

/-!
# The harvester

A harvester joins the parts: every target passes the rate limiter, then it is attempted under a
retry policy, with a page of its own for each attempt. Extractors are compiled before anything else
happens. A single target's last failure goes on to the caller; in a batch it becomes an outcome.
-/

set_option autoImplicit false

namespace WebHarvest

/-- A harvester: its configuration and what its browser layer holds. -/
structure Harvester where
  config : HarvesterConfig := {}
  held : Browser.Held := {}

namespace Harvester

def layer (harvester : Harvester) : Browser.Layer := ⟨harvester.config, harvester.held⟩

def started (harvester : Harvester) : Bool := harvester.layer.started

def controller (harvester : Harvester) : Retry.Controller :=
  { observer := harvester.config.onError }

def guarded (harvester : Harvester) (url operation : String) (selector : Option String)
    (options : HarvestOptions) (attempt : Action Value) : Action Value := do
  acquire url
  Retry.execute harvester.controller attempt (options.retryPolicy harvester.config.retry)
    [(.text "url", .text url), (.text "operation", .text operation),
      (.text "selector", .ofText? selector)]

/-- Extracts one record for every match of a selector. -/
def harvest (harvester : Harvester) (url selector : String) (extractor : Value)
    (options : HarvestOptions) : Action Value := do
  let schema ← Action.settle (Failure.ofSchema (Schema.compileExtractor extractor))
  harvester.guarded url "harvest" (some selector) options
    (extractOnce harvester.layer url selector schema options)

/-- The source of a function for a page: a text or a function that is not blank. -/
def pageSource (pageFunction : Value) : Except Failure String :=
  let source := match pageFunction with
    | .script source => source
    | source => source
  match source with
  | .text source =>
      if Text.isAllBlank source then .error (.schema .emptyPageFunction) else .ok source
  | _ => .error (.schema .emptyPageFunction)

def harvestCustom (harvester : Harvester) (url : String) (pageFunction : Value)
    (options : HarvestOptions) : Action Value := do
  let source ← Action.settle (pageSource pageFunction)
  harvester.guarded url "harvest_custom" none options
    (evaluateOnce harvester.layer url source options)

def screenshot (harvester : Harvester) (url : String) (options : HarvestOptions) : Action Value :=
  harvester.guarded url "screenshot" none options
    (captureOnce harvester.layer url (options.screenshot.getD {}) options)

def cookies (harvester : Harvester) (urls : Value) : Action Value := harvester.layer.cookies urls

def saveSession (harvester : Harvester) (id : String) : Action String := do
  if !harvester.started then throw (.raise .runtime "Harvester not started")
  let path ← Session.saveBrowser id
  Action.emit .sessionSaved [(.text "session_id", .text id)]
  return path

/-- An entry of a job list: a mapping stands for a job. -/
def jobOf (entry : Value) : Except Failure Value :=
  match entry with
  | .map entries => do
      return (← (BatchJob.check (.map entries)).validated "BatchJob").toValue
  | entry => .ok entry

def compileJob (entry : Value) : Except Failure Unit :=
  match entry with
  | .job _ _ extractor _ => (Failure.ofSchema (Schema.compileExtractor extractor)).map fun _ => ()
  | _ => .ok ()

/-- Checks the arguments of a batch: the list, its mappings, the extractors, the concurrency, and
that all entries are jobs, in this order. -/
def batchArguments (jobs concurrency : Value) : Except Failure (List BatchJob × Nat) := do
  match Batch.sequenceOf jobs with
  | none => throw (.type "jobs must be a sequence of BatchJob or dict")
  | some entries =>
      let entries ← entries.mapM jobOf
      let _ ← entries.mapM compileJob
      Batch.arguments (.list entries) concurrency

def jobOperation (harvester : Harvester) (job : BatchJob) : Action Value := do
  let schema ← Action.settle (Failure.ofSchema (Schema.compileExtractor job.extractor))
  extractOnce harvester.layer job.url job.selector schema job.options

def batchSetup (harvester : Harvester) (progress : Bool) : Batch.Setup where
  retry := harvester.controller
  defaultPolicy := harvester.config.retry
  progress := progress

/-- Harvests many targets. The outcomes are in the order of the jobs. -/
def harvestBatch {σ : Type} (host : Host σ) (wakeups : Nat) (harvester : Harvester)
    (jobs concurrency : Value) (progress : Bool) (moment : Moment σ) :
    Moment σ × Except Failure (List BatchOutcome) :=
  match batchArguments jobs concurrency with
  | .error failure => (moment, .error failure)
  | .ok (jobs, concurrency) =>
      Batch.run host wakeups (harvester.batchSetup progress) jobs concurrency
        harvester.jobOperation moment

/-- Starts the browser. A session to restore is looked up before. -/
def start (config : HarvesterConfig) : Browser.Handling Unit := do
  let storageState ← match config.session.sessionId with
    | some id =>
        if id.isEmpty then pure none
        else do
          let _ ← Browser.Handling.ofAction (Action.loadSession id)
          some <$> Browser.Handling.ofAction (Action.sessionPath id)
    | none => pure none
  Browser.start config storageState

def stop : Browser.Handling Unit := Browser.stop

/-- Starts the browser, runs a body on the started harvester, and stops the browser whatever
happens. A failure of the stop replaces the outcome. -/
def within {α : Type} (config : HarvesterConfig) (body : Harvester → Action α) :
    Browser.Handling α := do
  start config
  let held ← get
  let outcome ← (Browser.Handling.ofAction (body ⟨config, held⟩)).attempt
  stop
  ExceptT.mk (pure outcome)

/-- Harvests one target with a harvester of its own. -/
def harvestOnce (config : HarvesterConfig) (url selector : String) (extractor : Value)
    (options : HarvestOptions) : Browser.Handling Value :=
  within config fun harvester => harvester.harvest url selector extractor options

end Harvester

end WebHarvest
