import WebHarvest.Proofs.Batch.Work

/-!
# What is seen of a batch

The transcript of a batch is what is seen of its opening, of its jobs, chunk by chunk, and of its
closing. Of every job it shows one course: its work, from a moment on, then that it settles, what it
notifies, and that it ends.
-/

set_option autoImplicit false

namespace WebHarvest

/-- The same entry when the tasks are numbered from an offset on. -/
def Entry.shift (offset : Nat) (entry : Entry) : Entry :=
  { entry with task := offset + entry.task }

theorem stamp_shift (offset task : Nat) (time : Int) (deeds : List Deed) :
    (stamp task time deeds).map (Entry.shift offset) = stamp (offset + task) time deeds := by
  induction deeds generalizing time with
  | nil => rfl
  | cons deed deeds ih =>
      rw [stamp, List.map_cons, ih]
      rfl

theorem filter_shift (offset task : Nat) (log : List Entry) :
    (log.map (Entry.shift offset)).filter (·.task == offset + task) =
      (log.filter (·.task == task)).map (Entry.shift offset) := by
  rw [List.filter_map]
  congr 2
  funext entry
  simp [Entry.shift]

/-- Whether a job says with this that it has settled. -/
def Deed.settles : Deed → Bool
  | .asks (.countSettled _) => true
  | _ => false

namespace Batch

open Program (Led)

/-- What is seen of a batch itself before and after its jobs, and of its jobs; these are the tasks
of `jobs`. -/
structure Transcript where
  opening : List Entry := []
  jobs : List Entry := []
  closing : List Entry := []

variable {σ : Type}

def recordChunks (host : Host σ) (steps : Nat) (setup : Setup) (count total : Nat)
    (operation : BatchJob → Action Value) : Nat → List (List BatchJob) → Moment σ → List Entry
  | _, [], _ => []
  | offset, chunk :: rest, moment =>
      let programs := chunk.map fun job => (settle setup count total operation job).run
      (moment.record host steps programs).map (Entry.shift offset) ++
        recordChunks host steps setup count total operation (offset + chunk.length) rest
          (moment.runAll host steps stops programs).1

/-- What is seen of the run of a batch. -/
def record (host : Host σ) (steps : Nat) (setup : Setup) (jobs : List BatchJob) (concurrency : Nat)
    (operation : BatchJob → Action Value) (moment : Moment σ) : Transcript :=
  let begins := opening jobs.length concurrency
  let seen := moment.record host steps [begins.run]
  let groups := chunks concurrency jobs
  match moment.perform host steps begins with
  | (_, .error _) => { opening := seen }
  | (opened, .ok count) =>
      let done := recordChunks host steps setup count jobs.length operation 0 groups opened
      match runChunks host steps setup count jobs.length operation groups opened with
      | (_, .error _) => { opening := seen, jobs := done }
      | (settled, .ok outcomes) =>
          { opening := seen
            jobs := done
            closing := settled.record host steps [(closing setup outcomes).run] }

/-- How it went with one job. -/
structure Course where
  begun : Int
  /-- What it did until it settled. -/
  worked : List Deed
  /-- How many jobs have settled then. -/
  completed : Nat
  /-- What it did to notify. -/
  notice : List Deed
  outcome : BatchOutcome

namespace Course

def settled (course : Course) : Int := course.begun + slept course.worked

def ended (course : Course) : Int := course.settled + slept course.notice

def deeds (count : Nat) (course : Course) : List Deed :=
  course.worked ++ .asks (.countSettled count) :: .hears (.countSettled count) course.completed ::
    (course.notice ++ [.ends])

/-- The job works and takes the time for it as its duration; then it notifies. -/
structure Fits (course : Course) (atOnce : Request → Prop) (setup : Setup) (total : Nat)
    (job : BatchJob) : Prop where
  looks : ∃ rest, course.worked = .asks .now :: .hears .now course.begun :: rest
  works : ∀ request, Deed.asks request ∈ course.worked → request.isBatch = false
  outcome : ∃ result, course.outcome = timed job result (course.settled - course.begun)
  notifies : Led atOnce course.settled (notify setup course.completed total).run course.notice
    (.done (.ok ()))
  forward : ∀ deed ∈ course.worked, 0 ≤ deed.span

end Course

namespace Course

variable {course : Course} {atOnce : Request → Prop} {setup : Setup} {total : Nat} {job : BatchJob}

@[simp] theorem span_counted (count completed : Nat) :
    (Deed.hears (.countSettled count) completed).span = 0 := rfl

theorem slept_deeds (course : Course) (count : Nat) :
    course.begun + slept (course.deeds count) = course.ended := by
  simp only [deeds, ended, settled, slept_append, slept_cons, slept_nil, Deed.span_asks,
    span_counted, Deed.span_ends]
  omega

theorem Fits.all_forward (fits : course.Fits atOnce setup total job) (count : Nat) :
    ∀ deed ∈ course.deeds count, 0 ≤ deed.span := by
  simp only [deeds, List.forall_mem_append, List.forall_mem_cons, Deed.span_asks, span_counted,
    Deed.span_ends, le_refl, true_and]
  exact ⟨fits.forward, fits.notifies.forward, fun _ member => by cases member⟩

theorem ended_mem (course : Course) (count task : Nat) :
    ⟨course.ended, task, .ends⟩ ∈ stamp task course.begun (course.deeds count) := by
  have split : course.deeds count = (course.worked ++ .asks (.countSettled count) ::
      .hears (.countSettled count) course.completed :: course.notice) ++ [.ends] := by
    simp only [deeds, List.append_assoc, List.cons_append]
  have time := course.slept_deeds count
  rw [split, slept_append] at time
  rw [split, stamp_append]
  refine List.mem_append_right _ (List.mem_singleton.mpr ?_)
  rw [← time]
  simp

end Course

end Batch

end WebHarvest
