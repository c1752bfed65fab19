import WebHarvest.Proofs.Batch.Job
import WebHarvest.Proofs.Program.Completion
import WebHarvest.Proofs.Simulation.Audience

/-!
# What a batch comes to

The outcomes of a batch are those that its jobs would come to alone, in the order of the jobs.
-/

set_option autoImplicit false

namespace WebHarvest.Batch

theorem chunksWithin_flatten {α : Type} {size : Nat} (positive : 1 ≤ size) {bound : Nat}
    {items : List α} (enough : items.length ≤ bound) :
    (chunksWithin size bound items).flatten = items := by
  induction bound generalizing items with
  | zero =>
      obtain rfl := List.length_eq_zero_iff.mp (Nat.le_zero.mp enough)
      rfl
  | succ bound ih =>
      cases items with
      | nil => rfl
      | cons item rest =>
          have fewer : ((item :: rest).drop size).length ≤ bound := by
            rw [List.length_drop]
            omega
          rw [chunksWithin, List.flatten_cons, ih fewer, List.take_append_drop]
          exact nofun

theorem chunks_flatten {α : Type} {size : Nat} (positive : 1 ≤ size) (items : List α) :
    (chunks size items).flatten = items :=
  chunksWithin_flatten positive (Nat.le_refl _)

theorem map_filterMap_range {α γ : Type} {pick : Nat → Option α} {said : α → γ} {items : List γ}
    (each : ∀ (place : Nat) (inside : place < items.length),
      (pick place).map said = some items[place]) :
    ((List.range items.length).filterMap pick).map said = items := by
  have picked : (List.range items.length).map (fun place => (pick place).map said) =
      items.map some := by
    apply List.ext_getElem
    · rw [List.length_map, List.length_map, List.length_range]
    · intro place inside _
      rw [List.length_map, List.length_range] at inside
      rw [List.getElem_map, List.getElem_map, List.getElem_range, each place inside]
  calc ((List.range items.length).filterMap pick).map said
      = ((List.range items.length).map fun place => (pick place).map said).filterMap id := by
        rw [List.map_filterMap, List.filterMap_map]
        rfl
    _ = items := by
        rw [picked, List.filterMap_map]
        exact List.filterMap_some

section Gathering

variable {chunk : List BatchJob} {result : BatchJob → Except Failure Value}
variable {finished : List (Nat × Except Failure BatchOutcome)}

end Gathering

section Runs

variable {σ : Type} {host : Host σ} {view : HostView σ} {moment : Moment σ}
variable {key : BatchJob → String}

/-- What a job comes to alone, given what the next attempts of all operations come to. -/
def alone (default : RetryPolicy) (pauses : Int → Except Failure Unit) (key : BatchJob → String)
    (attempts : String → Attempts) (job : BatchJob) : Except Failure Value :=
  Retry.verdict (job.options.retryPolicy default) pauses (attempts (key job))

/-- Jobs whose results depend on nothing but the job and the number of the attempt, and which fail
in ordinary ways only. The host tells jobs apart by the names of their operations, so that the
attempts of two jobs with one name are no one's in particular: they all come to the same. -/
structure Separate (key : BatchJob → String) (attempts : String → Attempts)
    (jobs : List BatchJob) : Prop where
  apart : jobs.Pairwise fun first second =>
    key first = key second → (attempts (key first)).Steady
  ordinary : ∀ job ∈ jobs, ∀ number failure,
    attempts (key job) number = .error failure → failure.isOrdinary = true

theorem Separate.congr {attempts others : String → Attempts} {jobs : List BatchJob}
    (separate : Separate key attempts jobs)
    (same : ∀ job ∈ jobs, others (key job) = attempts (key job)) : Separate key others jobs where
  apart := by
    refine separate.apart.imp_of_mem fun {first second} isFirst _ steady shared => ?_
    rw [same first isFirst]
    exact steady shared
  ordinary := by
    intro job isJob
    rw [same job isJob]
    exact separate.ordinary job isJob

/-- The operation of the program with a certain number in a chunk. -/
def nameOf (key : BatchJob → String) (chunk : List BatchJob) (task : Nat) : String :=
  (chunk[task]?.map key).getD ""

theorem nameOf_eq {chunk : List BatchJob} {task : Nat} (inside : task < chunk.length) :
    nameOf key chunk task = key chunk[task] := by
  rw [nameOf, List.getElem?_eq_getElem inside, Option.map_some, Option.getD_some]

theorem Separate.tasks {attempts : String → Attempts} {chunk : List BatchJob}
    (separate : Separate key attempts chunk) :
    Apart (nameOf key chunk) attempts chunk.length := by
  have pairs := List.pairwise_iff_getElem.mp separate.apart
  intro first isFirst second isSecond differ same
  rw [nameOf_eq isFirst, nameOf_eq isSecond] at same
  rw [nameOf_eq isFirst]
  rcases Nat.lt_or_gt_of_ne differ with before | behind
  · exact pairs first second isFirst isSecond before same
  · rw [same]
    exact pairs second first isSecond isFirst behind same.symm

end Runs

end WebHarvest.Batch
