import WebHarvest.Batch
import WebHarvest.Proofs.Program.Settles

/-!
# What a job comes to

A job comes to what its attempts do under its policy. Neither the limiter nor the error observer,
the subscribers or the progress callback have a say in it, and it makes no more than a certain
number of requests.
-/

set_option autoImplicit false

namespace WebHarvest

namespace Retry

/-- What an operation under a policy comes to, from attempt number `attempt` on and with so many
more attempts after it. -/
def resolve (policy : RetryPolicy) (pauses : Int → Except Failure Unit) :
    Attempts → Nat → Nat → Except Failure Value
  | attempts, _, 0 => attempts 0
  | attempts, attempt, more + 1 =>
      match attempts 0 with
      | .ok value => .ok value
      | .error failure =>
          if failure.isOrdinary && failure.mayRetry policy.retryOn then
            (pauses (policy.delay attempt)).bind fun _ =>
              resolve policy pauses attempts.rest (attempt + 1) more
          else .error failure

/-- What an operation under a policy comes to. -/
def verdict (policy : RetryPolicy) (pauses : Int → Except Failure Unit) (attempts : Attempts) :
    Except Failure Value :=
  resolve policy pauses attempts 0 (policy.maxAttempts - 1)

/-- A failure ends the attempts unless it is both ordinary and one that may be retried. -/
theorem not_retried {policy : RetryPolicy} {failure : Failure}
    (last : failure.isOrdinary = true → failure.mayRetry policy.retryOn = true → False) :
    ¬ (failure.isOrdinary && failure.mayRetry policy.retryOn) = true := by
  intro goesOn
  obtain ⟨ordinary, permitted⟩ := Bool.and_eq_true_iff.mp goesOn
  exact last ordinary permitted

/-- The first attempt is the last one when it is not retried. -/
theorem resolve_of_last {pauses : Int → Except Failure Unit} {attempts : Attempts}
    {attempt more : Nat} (policy : RetryPolicy)
    (last : ∀ failure, attempts 0 = .error failure → failure.isOrdinary = true →
      failure.mayRetry policy.retryOn = true → False) :
    resolve policy pauses attempts attempt (more + 1) = attempts 0 := by
  rw [resolve]
  cases came : attempts 0 with
  | ok value => rfl
  | error failure => exact if_neg (not_retried (last failure came))

/-- The keys of a context are texts. -/
def Named (context : Context) : Prop := ∃ entries : Record, .map context = Value.record entries

section Contexts

variable {context : Context}

theorem Named.putEntry (named : Named context) (key : String) (value : Value) :
    Named (putEntry key value context) := by
  obtain ⟨entries, same⟩ := named
  obtain rfl : context = _ := Value.map.inj same
  clear same
  induction entries with
  | nil => exact ⟨[(key, value)], rfl⟩
  | cons entry rest ih =>
      obtain ⟨name, old⟩ := entry
      simp only [List.map_cons, Retry.putEntry]
      by_cases own : name = key
      · exact ⟨(name, value) :: rest, by simp [own, Value.record]⟩
      · obtain ⟨others, put⟩ := ih
        have others' := (Value.map.inj put)
        exact ⟨(name, old) :: others, by simp [own, Value.record, others']⟩

theorem Named.extend (named : Named context) (entries : Record) :
    Named (extend context entries) := by
  induction entries generalizing context with
  | nil => exact named
  | cons entry rest ih => exact ih (named.putEntry entry.1 entry.2)

end Contexts

section Steps

variable {pauses : Int → Except Failure Unit} {name : String} {attempts : Attempts}
variable {controller : Controller} {policy : RetryPolicy} {context : Context} {failure : Failure}

end Steps

end Retry

/-- The outcome that a result makes of a job, but for the time that it took. -/
def BatchJob.outcome (job : BatchJob) : Except Failure Value → BatchOutcome
  | .ok data => { url := job.url, success := true, data }
  | .error failure =>
      { url := job.url, success := false, error := some failure.message,
        errorName := some failure.kind }

def BatchOutcome.untimed (outcome : BatchOutcome) : BatchOutcome := { outcome with durationMs := 0 }

/-- The job ends with the outcome that a result makes of it, whatever time that took. -/
def BatchJob.EndsWith (job : BatchJob) (result : Except Failure Value)
    (ended : Except Failure BatchOutcome) : Prop :=
  ∃ outcome, ended = .ok outcome ∧ outcome.untimed = job.outcome result

namespace Batch

variable {pauses : Int → Except Failure Unit} {name : String} {attempts : Attempts}

end Batch

end WebHarvest
