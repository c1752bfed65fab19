import WebHarvest.Config.Options
import WebHarvest.Program.Schedule
import WebHarvest.Retry

/-!
# Batches

Many independent jobs run under a ceiling of concurrency. Jobs are taken in consecutive chunks; a
chunk runs together and has to settle completely before the next one starts. Each job passes the
rate limiter and is retried under its own policy. A job that fails becomes a failure outcome and
stops neither its siblings nor the batch. What no job turns into an outcome ends the batch at once;
siblings that sleep then are left to themselves.
-/

set_option autoImplicit false

namespace WebHarvest

/-- Waits until every scope of a target lets it through. -/
def acquire (target : String) : Action Unit :=
  (RateLimit.scopesOf target).forM fun scope => Action.takeSlot scope target

structure BatchJob where
  url : String
  selector : String
  extractor : Value := .null
  options : HarvestOptions := {}

namespace BatchJob

open Check

/-- A job that is one already is taken as it is; a mapping is validated. -/
def check : Value → Checked BatchJob
  | .job url selector extractor options => .accepted ⟨url, selector, extractor, options⟩
  | value => (fields "BatchJob" .host value).andThen fun entries =>
      mk <$> required entries "url" text <*> required entries "selector" text
        <*> field entries "extractor" any (.accepted .null)
        <*> field entries "options" HarvestOptions.check (.accepted {})

def record (job : BatchJob) : Record :=
  [("url", .text job.url), ("selector", .text job.selector), ("extractor", job.extractor),
    ("options", .record job.options.record)]

def toValue (job : BatchJob) : Value := .job job.url job.selector job.extractor job.options

end BatchJob

/-- The result of one job: its data when it succeeded, its error when it failed. -/
structure BatchOutcome where
  url : String
  success : Bool
  data : Value := .null
  error : Option String := none
  errorName : Option String := none
  durationMs : Int := 0

namespace BatchOutcome

open Check

def check (value : Value) : Checked BatchOutcome :=
  (fields "BatchOutcome" .host value).andThen fun entries =>
    mk <$> required entries "url" text <*> required entries "success" bool
      <*> field entries "data" any (.accepted .null)
      <*> field entries "error" (nullable text) (.accepted none)
      <*> field entries "error_name" (nullable text) (.accepted none)
      <*> field entries "duration_ms" int (.accepted 0)

def record (outcome : BatchOutcome) : Record :=
  [("url", .text outcome.url), ("success", .bool outcome.success), ("data", outcome.data),
    ("error", .ofText? outcome.error), ("error_name", .ofText? outcome.errorName),
    ("duration_ms", .int outcome.durationMs)]

end BatchOutcome

namespace Batch

def logger : String := componentLogger "resilience.batch"

structure Setup where
  /-- Jobs pass the rate limiter. -/
  limited : Bool := true
  retry : Retry.Controller := {}
  signals : Bool := true
  defaultPolicy : RetryPolicy := {}
  progress : Bool := false

def runJob (setup : Setup) (operation : BatchJob → Action Value) (job : BatchJob) :
    Action BatchOutcome := do
  let started ← Action.now
  let work : Action Value := do
    if setup.limited then acquire job.url
    Retry.execute setup.retry (operation job) (job.options.retryPolicy setup.defaultPolicy)
      [(.text "url", .text job.url), (.text "operation", .text "harvest"),
        (.text "selector", .text job.selector)]
  match ← work.attempt with
  | .ok data =>
      return { url := job.url, success := true, data,
               durationMs := ← Action.elapsed started }
  | .error failure =>
      if !failure.isOrdinary then throw failure
      Action.log <|
        structuredError logger .batchJobFailed failure.message true (.text job.url)
          (.text "harvest") (.record [("error_kind", .text failure.kind)])
      return {
        url := job.url, success := false, error := some failure.message,
        errorName := some failure.kind, durationMs := ← Action.elapsed started }

/-- Tells subscribers and the progress callback how many jobs have settled. A failure of the
callback is suppressed. -/
def notify (setup : Setup) (completed total : Nat) : Action Unit := do
  let counts : Record := [("completed", .ofNat completed), ("total", .ofNat total)]
  if setup.signals then
    Action.emit .batchProgress (counts.map fun (key, value) => (.text key, value))
  if setup.progress then
    (Action.progress completed total).recover Failure.isOrdinary fun fault =>
      Action.log <|
        structuredError logger .progressCallbackFailed fault.message true .null .null
          (.record counts)

def settle (setup : Setup) (count total : Nat) (operation : BatchJob → Action Value)
    (job : BatchJob) : Action BatchOutcome := do
  let outcome ← runJob setup operation job
  let completed ← Action.query (.countSettled count)
  notify setup completed total
  return outcome

/-- The concurrency that a value stands for: a positive integer. -/
def concurrencyOf (value : Value) : Except Failure Nat :=
  match value with
  | .int n =>
      if 1 ≤ n then .ok n.toNat
      else .error (.value ("concurrency must be a positive integer, got " ++ value.display))
  | _ => .error (.value ("concurrency must be a positive integer, got " ++ value.display))

def sequenceOf (value : Value) : Option (List Value) :=
  match value with
  | .list items => some items
  | .tuple items => some items
  | _ => none

def jobsOf (items : List Value) : Except Failure (List BatchJob) :=
  items.zipIdx.mapM fun (item, index) =>
    match item with
    | .job url selector extractor options => .ok ⟨url, selector, extractor, options⟩
    | item => .error (.type ("jobs[" ++ toString index ++ "] is " ++ item.typeName ++
        ", expected BatchJob"))

/-- Checks the arguments of a batch, the concurrency first. -/
def arguments (jobs concurrency : Value) : Except Failure (List BatchJob × Nat) := do
  let concurrency ← concurrencyOf concurrency
  match sequenceOf jobs with
  | none => .error (.type "jobs must be a sequence of BatchJob")
  | some items => return (← jobsOf items, concurrency)

/-- Consecutive chunks of a positive size; the bound is the number of items. -/
def chunksWithin {α : Type} (size : Nat) : Nat → List α → List (List α)
  | 0, _ => []
  | _, [] => []
  | bound + 1, items => items.take size :: chunksWithin size bound (items.drop size)

/-- Consecutive chunks of a positive size, the last one possibly smaller. -/
def chunks {α : Type} (size : Nat) (items : List α) : List (List α) :=
  chunksWithin size items.length items

variable {σ : Type}

/-- Whether a job's end ends the batch: a failure that no job turns into an outcome does. -/
def stops (result : Except Failure BatchOutcome) : Bool := result matches .error _

/-- The outcomes of a chunk in the order of its jobs, or the failure that stopped it. -/
def gather (count : Nat) (finished : List (Nat × Except Failure BatchOutcome)) :
    Except Failure (List BatchOutcome) :=
  match finished.findSome? fun (_, result) => match result with
    | .error failure => some failure
    | .ok _ => none with
  | some failure => .error failure
  | none => .ok <| (List.range count).filterMap fun task =>
      match finished.find? (·.1 == task) with
      | some (_, .ok outcome) => some outcome
      | _ => none

def runChunks (host : Host σ) (wakeups : Nat) (setup : Setup) (count total : Nat)
    (operation : BatchJob → Action Value) :
    List (List BatchJob) → Moment σ → Moment σ × Except Failure (List BatchOutcome)
  | [], moment => (moment, .ok [])
  | chunk :: rest, moment =>
      let (moment, finished) := moment.runAll host wakeups stops
        (chunk.map fun job => (settle setup count total operation job).run)
      match gather chunk.length finished with
      | .error failure => (moment, .error failure)
      | .ok outcomes =>
          let (moment, others) := runChunks host wakeups setup count total operation rest moment
          (moment, others.map (outcomes ++ ·))

/-- What is logged before the first chunk; the result is the number of the batch's count. -/
def opening (total concurrency : Nat) : Action Nat := do
  let count ← Action.query .beginCount
  Action.log <| .info logger
    ("Starting batch of " ++ toString total ++ " jobs (concurrency " ++ toString concurrency ++ ")")
  return count

/-- What is logged and emitted after the last chunk. -/
def closing (setup : Setup) (outcomes : List BatchOutcome) : Action Unit := do
  let total := outcomes.length
  let succeeded := outcomes.countP (·.success)
  Action.log <| .info logger
    ("Batch complete: " ++ toString succeeded ++ " succeeded, " ++ toString (total - succeeded) ++
      " failed")
  if setup.signals then
    Action.emit .batchComplete
      [(.text "total", .ofNat total), (.text "succeeded", .ofNat succeeded),
        (.text "failed", .ofNat (total - succeeded))]

/-- Runs an operation for every job; the outcomes are in the order of the jobs. -/
def run (host : Host σ) (wakeups : Nat) (setup : Setup) (jobs : List BatchJob) (concurrency : Nat)
    (operation : BatchJob → Action Value) (moment : Moment σ) :
    Moment σ × Except Failure (List BatchOutcome) :=
  let (moment, opened) := moment.perform host wakeups (opening jobs.length concurrency)
  match opened with
  | .error failure => (moment, .error failure)
  | .ok count =>
      match runChunks host wakeups setup count jobs.length operation (chunks concurrency jobs)
        moment with
      | (moment, .error failure) => (moment, .error failure)
      | (moment, .ok outcomes) =>
          let (moment, closed) := moment.perform host wakeups (closing setup outcomes)
          (moment, closed.map fun _ => outcomes)

end Batch

end WebHarvest
