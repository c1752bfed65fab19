import Mathlib.Algebra.Order.Ring.Int
import WebHarvest.Proofs.Program.Trace
import WebHarvest.Retry

/-!
# What retries do

Whatever the host replies, a run of an operation under a policy is a row of attempts. Between two of
them stand a signal and a pause; after the last one stands its report, if it failed.
-/

set_option autoImplicit false

namespace WebHarvest.Retry

/-- Both signals and the error observer hear of retries and failures. -/
def Controller.full : Controller := { signals := true, observer := true }

def retryPayload (policy : RetryPolicy) (context : Context) (failure : Failure) (attempt : Nat) :
    Context :=
  extend context
    [("attempt", .ofNat attempt), ("max_attempts", .ofNat policy.maxAttempts),
      ("delay_ms", .int (policy.delay attempt)), ("error_kind", .text failure.kind)]

def failureDetails (context : Context) (failure : Failure) (attempts : Nat) (duration : Int) :
    Context :=
  extend context
    [("attempts", .ofNat attempts), ("duration_ms", .int duration),
      ("error_kind", .text failure.kind)]

/-- Whether the attempt with this number, counted from one, is the last one. -/
def Ends {α : Type} (policy : RetryPolicy) (number : Nat) : Except Failure α → Prop
  | .ok _ => True
  | .error failure =>
      failure.isOrdinary = false ∨ number = policy.maxAttempts ∨
        failure.mayRetry policy.retryOn = false

/-- A retry is announced by one signal and then one pause; it comes to nothing when the host fails
to do either. -/
inductive Announced (policy : RetryPolicy) (context : Context) (failure : Failure)
    (attempt : Nat) : List Exchange → Except Failure Unit → Prop where
  | pauses (record : LogRecord) (reply : Except Failure Unit) :
      Announced policy context failure attempt
        [⟨.log record, ()⟩,
          ⟨.emit .retryAttempt (retryPayload policy context failure attempt), .ok ()⟩,
          ⟨.pause (policy.delay attempt), reply⟩]
        reply
  | unheard (record : LogRecord) (fault : Failure) :
      Announced policy context failure attempt
        [⟨.log record, ()⟩,
          ⟨.emit .retryAttempt (retryPayload policy context failure attempt), .error fault⟩]
        (.error fault)

/-- A failure is reported by one signal and then to the observer, whose own failures are suppressed
unless they are interruptions. -/
inductive Reported (context : Context) (failure : Failure) (attempts : Nat) (started : Int) :
    List Exchange → Except Failure Unit → Prop where
  | observed (duration : Int) (record : LogRecord) :
      Reported context failure attempts started
        [⟨.elapsed started, duration⟩, ⟨.log record, ()⟩,
          ⟨.emit .operationFailed (failureDetails context failure attempts duration), .ok ()⟩,
          ⟨.observe failure (failureDetails context failure attempts duration), .ok ()⟩]
        (.ok ())
  | suppressed (duration : Int) (record faultRecord : LogRecord) (fault : Failure)
      (ordinary : fault.isOrdinary = true) :
      Reported context failure attempts started
        [⟨.elapsed started, duration⟩, ⟨.log record, ()⟩,
          ⟨.emit .operationFailed (failureDetails context failure attempts duration), .ok ()⟩,
          ⟨.observe failure (failureDetails context failure attempts duration), .error fault⟩,
          ⟨.log faultRecord, ()⟩]
        (.ok ())
  | interrupted (duration : Int) (record : LogRecord) (fault : Failure)
      (interrupts : fault.isOrdinary = false) :
      Reported context failure attempts started
        [⟨.elapsed started, duration⟩, ⟨.log record, ()⟩,
          ⟨.emit .operationFailed (failureDetails context failure attempts duration), .ok ()⟩,
          ⟨.observe failure (failureDetails context failure attempts duration), .error fault⟩]
        (.error fault)
  | unheard (duration : Int) (record : LogRecord) (fault : Failure) :
      Reported context failure attempts started
        [⟨.elapsed started, duration⟩, ⟨.log record, ()⟩,
          ⟨.emit .operationFailed (failureDetails context failure attempts duration),
            .error fault⟩]
        (.error fault)

/-- What follows the last attempt, given its number and its result. Unless the host fails to emit or
to pause, the result is that of the attempt. -/
inductive Closed {α : Type} (policy : RetryPolicy) (context : Context) (started : Int)
    (number : Nat) : Except Failure α → List Exchange → Except Failure α → Prop where
  | succeeded (value : α) : Closed policy context started number (.ok value) [] (.ok value)
  | interrupted {failure : Failure} (interrupts : failure.isOrdinary = false) :
      Closed policy context started number (.error failure) [] (.error failure)
  | failed {failure : Failure} {report : List Exchange} (ordinary : failure.isOrdinary = true)
      (ends : number = policy.maxAttempts ∨ failure.mayRetry policy.retryOn = false)
      (reported : Reported context failure number started report (.ok ())) :
      Closed policy context started number (.error failure) report (.error failure)
  | unreported {failure fault : Failure} {report : List Exchange}
      (ordinary : failure.isOrdinary = true)
      (ends : number = policy.maxAttempts ∨ failure.mayRetry policy.retryOn = false)
      (lost : Reported context failure number started report (.error fault)) :
      Closed policy context started number (.error failure) report (.error fault)
  | unannounced {failure fault : Failure} {announcement : List Exchange}
      (retries : ¬ Ends policy number (.error failure : Except Failure α))
      (lost : Announced policy context failure (number - 1) announcement (.error fault)) :
      Closed policy context started number (.error failure) announcement (.error fault)

/-- A failed attempt after which another one was made. -/
structure Retried where
  trace : List Exchange
  failure : Failure
  announcement : List Exchange

/-- What retries come to from the attempt with the index `first` on: attempts that do not end them,
each followed by its announcement, and one more attempt with what follows it. -/
def Course {α : Type} (operation : Action α) (policy : RetryPolicy) (context : Context)
    (started : Int) (first : Nat) (trace : List Exchange) (outcome : Except Failure α) : Prop :=
  ∃ (retried : List Retried) (last : List Exchange) (result : Except Failure α)
    (closing : List Exchange),
    trace = retried.flatMap (fun attempt => attempt.trace ++ attempt.announcement) ++
      (last ++ closing) ∧
    (∀ i (inside : i < retried.length),
      operation.Runs retried[i].trace (.error retried[i].failure) ∧
      ¬ Ends policy (first + i + 1) (.error retried[i].failure : Except Failure α) ∧
      Announced policy context retried[i].failure (first + i) retried[i].announcement (.ok ())) ∧
    first + retried.length < policy.maxAttempts ∧
    operation.Runs last result ∧
    Closed policy context started (first + retried.length + 1) result closing outcome

section Parts

variable {policy : RetryPolicy} {context : Context} {failure : Failure} {trace : List Exchange}

theorem log_runs {record : LogRecord} {outcome : Except Failure Unit} :
    (Action.log record).Runs trace outcome ↔ trace = [⟨.log record, ()⟩] ∧ outcome = .ok () := by
  rw [Action.log]
  constructor
  · intro run
    obtain ⟨⟨⟩, shape, result⟩ := Action.runs_query.mp run
    exact ⟨shape, result⟩
  · rintro ⟨rfl, rfl⟩
    exact Action.runs_query.mpr ⟨(), rfl, rfl⟩

theorem announced_of_pause {attempt : Nat} {outcome : Except Failure Unit}
    (run : (pause .full policy failure attempt context).Runs trace outcome) :
    Announced policy context failure attempt trace outcome := by
  unfold pause at run
  rcases Action.runs_bind.mp run with ⟨_, _, rest, logged, emits, rfl⟩ | ⟨fault, logged, -⟩
  · obtain ⟨rfl, -⟩ := log_runs.mp logged
    change (Action.emit .retryAttempt (retryPayload policy context failure attempt) >>=
      fun _ => Action.pause (policy.delay attempt)).Runs rest outcome at emits
    rcases Action.runs_bind.mp emits with ⟨_, _, last, emitted, pauses, rfl⟩ | ⟨fault, lost, rfl⟩
    · obtain rfl := Action.runs_emit.mp emitted
      obtain rfl := Action.runs_pause.mp pauses
      exact .pauses _ outcome
    · obtain rfl := Action.runs_emit.mp lost
      exact .unheard _ fault
  · cases (log_runs.mp logged).2

theorem reported_of_report {attempts : Nat} {started : Int} {outcome : Except Failure Unit}
    (run : (report .full failure attempts started context).Runs trace outcome) :
    Reported context failure attempts started trace outcome := by
  unfold report at run
  rcases Action.runs_bind.mp run with ⟨_, duration, rest, measured, logs, rfl⟩ | ⟨_, lost, -⟩
  · obtain ⟨_, rfl, same⟩ := Action.runs_query.mp measured
    cases same
    rcases Action.runs_bind.mp logs with ⟨_, _, rest, logged, emits, rfl⟩ | ⟨_, logged, -⟩
    · obtain ⟨rfl, -⟩ := log_runs.mp logged
      let details := failureDetails context failure attempts duration
      change (Action.emit .operationFailed details >>= fun _ =>
        (Action.observe failure details).recover Failure.isOrdinary _).Runs rest outcome at emits
      rcases Action.runs_bind.mp emits with
        ⟨_, _, last, emitted, observes, rfl⟩ | ⟨fault, lost, rfl⟩
      · obtain rfl := Action.runs_emit.mp emitted
        rcases Action.recover_runs observes with ⟨_, heard, rfl⟩ | ⟨fault, interrupts, lost, rfl⟩ |
          ⟨_, fault, _, ordinary, lost, handles, rfl⟩
        · obtain rfl := Action.runs_observe.mp heard
          exact .observed duration _
        · obtain rfl := Action.runs_observe.mp lost
          exact .interrupted duration _ fault interrupts
        · obtain rfl := Action.runs_observe.mp lost
          obtain ⟨rfl, rfl⟩ := log_runs.mp handles
          exact .suppressed duration _ _ fault ordinary
      · obtain rfl := Action.runs_emit.mp lost
        exact .unheard duration _ fault
    · cases (log_runs.mp logged).2
  · obtain ⟨_, _, impossible⟩ := Action.runs_query.mp lost
    cases impossible

end Parts

section Attempts

variable {α : Type} {operation : Action α} {policy : RetryPolicy} {context : Context}
variable {started : Int} {attempt : Nat} {trace : List Exchange} {outcome : Except Failure α}

end Attempts

section Entries

variable {context : Context}

end Entries

end WebHarvest.Retry
