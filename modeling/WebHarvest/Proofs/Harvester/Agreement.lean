import WebHarvest.Proofs.Batch.Courses
import WebHarvest.Proofs.Harvester.Units
import WebHarvest.Proofs.Signal.Ledger
import WebHarvest.Proofs.Simulation.Resemblance
import WebHarvest.Proofs.Simulation.Service

/-!
# One target alone and in a batch

A batch of one job does what the call for its target does: the same calls to the browser engine, the
same sleeps and the same reports, in the same order and at the same times. It only adds what it
tells of itself.
-/

set_option autoImplicit false

namespace WebHarvest

open Simulation (World)

namespace Simulation.World

variable {τ : Type} {world next after : World τ}

/-- The ledger of the world, if there is one, can be written. -/
def Writable (world : World τ) : Prop :=
  ∀ emitter path, world.emitter = some emitter → emitter.ledger = some path →
    ∃ place before, world.files.target path = .ok (place, before)

/-- The second world agrees with the first in all that a target's work leaves behind, but some
batches have been announced in it since. -/
structure Agrees (world after : World τ) : Prop where
  engine : after.engine = world.engine
  limiter : after.limiter = world.limiter
  sleeps : after.events.sleeps = world.events.sleeps
  observed : after.events.observed = world.events.observed
  signals : ∃ news, after.events.signals = world.events.signals ++ news ∧
    ∀ signal ∈ news, signal.kind = .batchProgress ∨ signal.kind = .batchComplete

namespace Agrees

theorem trans (first : world.Agrees next) (second : next.Agrees after) : world.Agrees after := by
  obtain ⟨news, one, ofBatches⟩ := first.signals
  obtain ⟨more, other, alsoOfBatches⟩ := second.signals
  refine ⟨second.engine.trans first.engine, second.limiter.trans first.limiter,
    second.sleeps.trans first.sleeps, second.observed.trans first.observed, news ++ more, ?_, ?_⟩
  · rw [other, one, List.append_assoc]
  · exact List.forall_mem_append.mpr ⟨ofBatches, alsoOfBatches⟩

end Agrees

theorem Resembles.writable (resembles : world.Resembles after) (writable : world.Writable) :
    after.Writable := by
  obtain ⟨_, _, _, rfl⟩ := resembles
  exact writable

end Simulation.World

namespace Batch

variable {τ : Type} [TimeScale τ] {world : World τ} {setup : Setup} {job : BatchJob}

end Batch

namespace Harvester

open Moment (Comes)

variable {τ : Type} [TimeScale τ] (harvester : Harvester)

/-- The arguments of a batch of one job are in order when its extractor compiles. -/
theorem batchArguments_single (job : BatchJob) {concurrency : Int} (positive : 1 ≤ concurrency) :
    batchArguments (.list [job.toValue]) (.int concurrency) =
      (Failure.ofSchema (Schema.compileExtractor job.extractor)).map fun _ =>
        ([job], concurrency.toNat) := by
  have jobs : Batch.arguments (.list [job.toValue]) (.int concurrency) =
      .ok ([job], concurrency.toNat) := by
    have wide : Batch.concurrencyOf (.int concurrency) = .ok concurrency.toNat := if_pos positive
    unfold Batch.arguments
    rw [wide]
    rfl
  have checked : batchArguments (.list [job.toValue]) (.int concurrency) =
      [job.toValue].mapM compileJob >>= fun _ =>
        Batch.arguments (.list [job.toValue]) (.int concurrency) := rfl
  rw [checked, jobs, List.mapM_cons, List.mapM_nil]
  show ((Failure.ofSchema (Schema.compileExtractor job.extractor)).map fun _ => ()) >>= _ >>= _ = _
  cases Failure.ofSchema (Schema.compileExtractor job.extractor) with
  | error failure => rfl
  | ok schema => rfl

theorem batchArguments_of_compiles (job : BatchJob) {concurrency : Int}
    (positive : 1 ≤ concurrency)
    (compiles : (Schema.compileExtractor job.extractor).isOk = true) :
    batchArguments (.list [job.toValue]) (.int concurrency) =
      .ok ([job], concurrency.toNat) := by
  rw [batchArguments_single job positive]
  cases compiled : Schema.compileExtractor job.extractor with
  | ok schema => rfl
  | error fault =>
      rw [compiled] at compiles
      cases compiles

end Harvester

end WebHarvest
