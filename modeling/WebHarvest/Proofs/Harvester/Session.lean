import WebHarvest.Proofs.Harvester.Events
import WebHarvest.Proofs.Program.Together

/-!
# What is done with a harvester

A session is a row of steps: calls for one target each, made at the same time, or a batch. What is
heard in it comes from its units of work, each pursued once, and from what the batches do around
them.
-/

set_option autoImplicit false

namespace WebHarvest

namespace Batch

variable {σ : Type}

/-- What is heard of the chunks of a batch. -/
def chunkExchanges (host : Host σ) (wakeups : Nat) (setup : Setup) (count total : Nat)
    (operation : BatchJob → Action Value) : List (List BatchJob) → Moment σ → List Exchange
  | [], _ => []
  | chunk :: rest, moment =>
      let programs := programsOf setup count total operation chunk
      moment.exchanges host wakeups stops programs ++
        chunkExchanges host wakeups setup count total operation rest
          (moment.runAll host wakeups stops programs).1

/-- The wake-ups suffice for all jobs of the chunks to end. -/
def ChunksFinish (host : Host σ) (wakeups : Nat) (setup : Setup) (count total : Nat)
    (operation : BatchJob → Action Value) : List (List BatchJob) → Moment σ → Prop
  | [], _ => True
  | chunk :: rest, moment =>
      let programs := programsOf setup count total operation chunk
      moment.Finishes host wakeups stops programs ∧
        ChunksFinish host wakeups setup count total operation rest
          (moment.runAll host wakeups stops programs).1

/-- What is heard of a batch. -/
def exchanges (host : Host σ) (wakeups : Nat) (setup : Setup) (jobs : List BatchJob)
    (concurrency : Nat) (operation : BatchJob → Action Value) (moment : Moment σ) :
    List Exchange :=
  let begins := opening jobs.length concurrency
  let groups := chunks concurrency jobs
  let opened := moment.perform host wakeups begins
  moment.exchanges host wakeups (fun _ => false) [begins.run] ++
    match opened.2 with
    | .error _ => []
    | .ok count =>
        let settled := runChunks host wakeups setup count jobs.length operation groups opened.1
        chunkExchanges host wakeups setup count jobs.length operation groups opened.1 ++
          match settled.2 with
          | .error _ => []
          | .ok outcomes =>
              settled.1.exchanges host wakeups (fun _ => false) [(closing setup outcomes).run]

/-- The wake-ups suffice for a batch to come to its end. -/
def Finishes (host : Host σ) (wakeups : Nat) (setup : Setup) (jobs : List BatchJob)
    (concurrency : Nat) (operation : BatchJob → Action Value) (moment : Moment σ) : Prop :=
  let begins := opening jobs.length concurrency
  let groups := chunks concurrency jobs
  let opened := moment.perform host wakeups begins
  moment.Finishes host wakeups (fun _ => false) [begins.run] ∧
    ∀ count, opened.2 = .ok count →
      ChunksFinish host wakeups setup count jobs.length operation groups opened.1 ∧
        ∀ outcomes,
          (runChunks host wakeups setup count jobs.length operation groups opened.1).2 =
              .ok outcomes →
            (runChunks host wakeups setup count jobs.length operation groups opened.1).1.Finishes
              host wakeups (fun _ => false) [(closing setup outcomes).run]

end Batch

namespace Harvester

/-- What is done with a harvester at a time: calls for one target each, or a batch. -/
inductive Step where
  | calls (errands : List Errand)
  | batch (jobs concurrency : Value) (progress : Bool)

namespace Step

variable {σ : Type}

/-- The unit of work that a call is, and the value that it has come to. -/
def unitOfCall (errand : Errand) (result : Option (Except Failure Value)) :
    Option (Work × Option Value) :=
  match errand.work, result with
  | .ok work, some result => some (work, result.toOption)
  | _, _ => none

/-- The unit of work that a job is, and its data when it has succeeded. -/
def unitOfJob (job : BatchJob) (outcome : BatchOutcome) : Option (Work × Option Value) :=
  match workOf job with
  | .ok work => some (work, if outcome.success then some outcome.data else none)
  | .error _ => none

def unitsOfCalls (errands : List Errand) (results : List (Option (Except Failure Value))) :
    List (Work × Option Value) :=
  (errands.zip results).filterMap fun (errand, result) => unitOfCall errand result

def unitsOfBatch (jobs : List BatchJob) (outcomes : List BatchOutcome) :
    List (Work × Option Value) :=
  (jobs.zip outcomes).filterMap fun (job, outcome) => unitOfJob job outcome

def programs (harvester : Harvester) (errands : List Errand) :
    List (Program (Except Failure Value)) :=
  errands.map fun errand => (errand.action harvester).run

/-- Does the step; the result are its units of work with the values that they have come to. A unit
that has failed has none. -/
def perform (host : Host σ) (wakeups : Nat) (harvester : Harvester) :
    Step → Moment σ → Moment σ × List (Work × Option Value)
  | calls errands, moment =>
      let (after, results) := moment.together host wakeups (programs harvester errands)
      (after, unitsOfCalls errands results)
  | batch jobs concurrency progress, moment =>
      let (after, result) :=
        harvester.harvestBatch host wakeups jobs concurrency progress moment
      (after, match batchArguments jobs concurrency, result with
        | .ok (jobs, _), .ok outcomes => unitsOfBatch jobs outcomes
        | _, _ => [])

/-- What is heard in the step, in the order of the replies. -/
def exchanges (host : Host σ) (wakeups : Nat) (harvester : Harvester) :
    Step → Moment σ → List Exchange
  | calls errands, moment =>
      moment.exchanges host wakeups (fun _ => false) (programs harvester errands)
  | batch jobs concurrency progress, moment =>
      match batchArguments jobs concurrency with
      | .error _ => []
      | .ok (jobs, concurrency) =>
          Batch.exchanges host wakeups (harvester.batchSetup progress) jobs concurrency
            harvester.jobOperation moment

/-- The wake-ups suffice for the step to come to its end. -/
def Finishes (host : Host σ) (wakeups : Nat) (harvester : Harvester) : Step → Moment σ → Prop
  | calls errands, moment =>
      moment.Finishes host wakeups (fun _ => false) (programs harvester errands)
  | batch jobs concurrency progress, moment =>
      ∀ checked, batchArguments jobs concurrency = .ok checked →
        Batch.Finishes host wakeups (harvester.batchSetup progress) checked.1 checked.2
          harvester.jobOperation moment

end Step

namespace Session

variable {σ : Type}

def units (host : Host σ) (wakeups : Nat) (harvester : Harvester) :
    List Step → Moment σ → List (Work × Option Value)
  | [], _ => []
  | step :: rest, moment =>
      let (after, units) := step.perform host wakeups harvester moment
      units ++ Session.units host wakeups harvester rest after

def exchanges (host : Host σ) (wakeups : Nat) (harvester : Harvester) :
    List Step → Moment σ → List Exchange
  | [], _ => []
  | step :: rest, moment =>
      step.exchanges host wakeups harvester moment ++
        Session.exchanges host wakeups harvester rest (step.perform host wakeups harvester moment).1

def Finishes (host : Host σ) (wakeups : Nat) (harvester : Harvester) :
    List Step → Moment σ → Prop
  | [], _ => True
  | step :: rest, moment =>
      step.Finishes host wakeups harvester moment ∧
        Session.Finishes host wakeups harvester rest (step.perform host wakeups harvester moment).1

end Session

end Harvester

end WebHarvest
