import WebHarvest.Proofs.Batch.Work
import WebHarvest.Proofs.Harvester.Requests

/-!
# Units of work

A call for one target and a job of a batch come down to the same guarded program, once their
extractor has been compiled. In a batch it stands between two looks at the clock, and the batch is
told that the job has settled.
-/

set_option autoImplicit false

namespace WebHarvest

namespace Batch

variable {setup : Setup} {operation : BatchJob → Action Value}

/-- What a job does when its outcome is there. -/
def settled (setup : Setup) (count total : Nat) :
    Except Failure BatchOutcome → Program (Except Failure BatchOutcome)
  | .ok outcome => .ask (.countSettled count) fun completed =>
      (notify setup completed total).run.bind fun
        | .ok _ => .done (.ok outcome)
        | .error failure => .done (.error failure)
  | .error failure => .done (.error failure)

theorem runJob_run (setup : Setup) (operation : BatchJob → Action Value) (job : BatchJob) :
    (runJob setup operation job).run =
      .ask .now fun started => (work setup operation job).run.bind fun result =>
        (wrapUp job started result).run := by
  refine congrArg (Program.ask .now) (funext fun started => ?_)
  show ((work setup operation job).attempt >>= wrapUp job started).run = _
  rw [Action.run_attempt_bind]

theorem settle_run (setup : Setup) (count total : Nat) (operation : BatchJob → Action Value)
    (job : BatchJob) :
    (settle setup count total operation job).run =
      .ask .now fun started => (work setup operation job).run.bind fun result =>
        (wrapUp job started result).run.bind (settled setup count total) := by
  have after (outcome : Except Failure BatchOutcome) :
      ExceptT.bindCont (fun outcome => do
        let completed ← Action.query (.countSettled count)
        notify setup completed total
        return outcome : BatchOutcome → Action BatchOutcome) outcome =
      settled setup count total outcome := by
    cases outcome with
    | error failure => rfl
    | ok outcome =>
        refine congrArg (Program.ask (.countSettled count)) (funext fun completed => ?_)
        refine congrArg (Program.bind (notify setup completed total).run) (funext fun told => ?_)
        cases told with
        | ok => rfl
        | error failure => rfl
  have whole : (settle setup count total operation job).run =
      (runJob setup operation job).run.bind (settled setup count total) :=
    congrArg (Program.bind (runJob setup operation job).run) (funext after)
  rw [whole, runJob_run]
  refine congrArg (Program.ask .now) (funext fun started => ?_)
  rw [Program.bind_assoc]

end Batch

namespace Harvester

variable (harvester : Harvester)

section Programs

variable {extractor : Value} {schema : CompiledSchema Value}
variable (compiled : Schema.compileExtractor extractor = .ok schema)
variable (url selector : String) (options : HarvestOptions)

include compiled

theorem work_eq (progress : Bool) :
    Batch.work (harvester.batchSetup progress) harvester.jobOperation
        ⟨url, selector, extractor, options⟩ =
      harvester.guarded url "harvest" (some selector) options
        (extractOnce harvester.layer url selector schema options) := by
  have operation : harvester.jobOperation ⟨url, selector, extractor, options⟩ =
      extractOnce harvester.layer url selector schema options := by
    unfold jobOperation
    rw [compiled]
    rfl
  unfold Batch.work
  rw [operation]
  rfl

end Programs

theorem guarded_asks {allowed : Request → Prop}
    (slots : ∀ request, request.isSlot = true → allowed request)
    (retries : ∀ request, request.isRetry = true → allowed request) {attempt : Action Value}
    (asks : attempt.Asks allowed) (url operation : String) (selector : Option String)
    (options : HarvestOptions) :
    (harvester.guarded url operation selector options attempt).Asks allowed :=
  Action.asks_bind ((acquire_asks url).mono slots) fun _ => Retry.execute_asks retries asks

end Harvester

end WebHarvest
