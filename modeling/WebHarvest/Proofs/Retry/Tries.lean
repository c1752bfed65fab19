import WebHarvest.Proofs.Retry

/-!
# Attempts and what follows them

Whoever hears of it, a run of an operation under a policy is a row of attempts, each with its
sequel: nothing, the announcement of the next attempt, or the report of the last failure.
-/

set_option autoImplicit false

namespace WebHarvest

/-- The failure that the observer is told of. -/
def Exchange.observed? : Exchange → Option Failure
  | ⟨.observe failure _, _⟩ => some failure
  | _ => none

namespace Retry

/-- An attempt and what followed it. -/
structure Try (α : Type) where
  trace : List Exchange
  result : Except Failure α
  sequel : List Exchange

def Try.whole {α : Type} (attempt : Try α) : List Exchange := attempt.trace ++ attempt.sequel

/-- From the attempt with a number on, these attempts have been made, and the last of them or its
sequel has led to the outcome. -/
inductive Tried {α : Type} (controller : Controller) (operation : Action α) (policy : RetryPolicy)
    (context : Context) (started : Int) : Nat → List (Try α) → Except Failure α → Prop where
  | succeeded {number : Nat} {trace : List Exchange} {value : α}
      (ran : operation.Runs trace (.ok value)) :
      Tried controller operation policy context started number [⟨trace, .ok value, []⟩] (.ok value)
  | interrupted {number : Nat} {trace : List Exchange} {failure : Failure}
      (ran : operation.Runs trace (.error failure)) (interrupts : failure.isOrdinary = false) :
      Tried controller operation policy context started number [⟨trace, .error failure, []⟩]
        (.error failure)
  | reported {number : Nat} {trace sequel : List Exchange} {failure : Failure}
      {reply : Except Failure Unit} (ran : operation.Runs trace (.error failure))
      (ordinary : failure.isOrdinary = true)
      (reports : (report controller failure (number + 1) started context).Runs sequel reply) :
      Tried controller operation policy context started number
        [⟨trace, .error failure, sequel⟩] (reply.bind fun _ => .error failure)
  | stranded {number : Nat} {trace sequel : List Exchange} {failure fault : Failure}
      (ran : operation.Runs trace (.error failure)) (ordinary : failure.isOrdinary = true)
      (pauses : (pause controller policy failure number context).Runs sequel (.error fault)) :
      Tried controller operation policy context started number
        [⟨trace, .error failure, sequel⟩] (.error fault)
  | retried {number : Nat} {trace sequel : List Exchange} {failure : Failure}
      {tries : List (Try α)} {outcome : Except Failure α}
      (ran : operation.Runs trace (.error failure)) (ordinary : failure.isOrdinary = true)
      (permitted : failure.mayRetry policy.retryOn = true)
      (pauses : (pause controller policy failure number context).Runs sequel (.ok ()))
      (rest : Tried controller operation policy context started (number + 1) tries outcome) :
      Tried controller operation policy context started number
        (⟨trace, .error failure, sequel⟩ :: tries) outcome

section Telemetry

variable {controller : Controller} {policy : RetryPolicy} {context : Context} {failure : Failure}
variable {trace : List Exchange}

/-- A report of a failure, whether an observer listens or not. -/
inductive Filed (controller : Controller) (context : Context) (failure : Failure) (attempts : Nat)
    (started : Int) : List Exchange → Except Failure Unit → Prop where
  | observed {trace : List Exchange} {reply : Except Failure Unit}
      (observes : controller.observer = true)
      (reported : Reported context failure attempts started trace reply) :
      Filed controller context failure attempts started trace reply
  | unobserved (alone : controller.observer = false) (duration : Int) (record : LogRecord)
      (reply : Except Failure Unit) :
      Filed controller context failure attempts started
        [⟨.elapsed started, duration⟩, ⟨.log record, ()⟩,
          ⟨.emit .operationFailed (failureDetails context failure attempts duration), reply⟩]
        reply

theorem report_filed (signals : controller.signals = true) {attempts : Nat} {started : Int}
    {reply : Except Failure Unit}
    (run : (report controller failure attempts started context).Runs trace reply) :
    Filed controller context failure attempts started trace reply := by
  cases observes : controller.observer with
  | true =>
      obtain rfl : controller = .full := by
        cases controller
        cases signals
        cases observes
        rfl
      exact .observed observes (reported_of_report run)
  | false =>
      unfold report at run
      simp only [signals, observes, if_true, Bool.false_eq_true, if_false] at run
      rcases Action.runs_bind.mp run with ⟨_, duration, rest, measured, logs, rfl⟩ | ⟨_, lost, -⟩
      · obtain ⟨_, rfl, same⟩ := Action.runs_query.mp measured
        cases same
        rcases Action.runs_bind.mp logs with ⟨_, _, rest, logged, emits, rfl⟩ | ⟨_, logged, -⟩
        · obtain ⟨rfl, -⟩ := log_runs.mp logged
          rcases Action.runs_bind.mp emits with ⟨_, _, last, emitted, ends, rfl⟩ | ⟨_, lost, rfl⟩
          · obtain rfl := Action.runs_emit.mp emitted
            obtain ⟨rfl, rfl⟩ := Action.runs_pure.mp ends
            exact .unobserved observes duration _ _
          · obtain rfl := Action.runs_emit.mp lost
            exact .unobserved observes duration _ _
        · cases (log_runs.mp logged).2
      · obtain ⟨_, _, impossible⟩ := Action.runs_query.mp lost
        cases impossible

/-- Whoever is told of a failure by a report is told of the reported one. -/
theorem Filed.tells {attempts : Nat} {started : Int} {reply : Except Failure Unit}
    (filed : Filed controller context failure attempts started trace reply) :
    ∀ told ∈ trace.filterMap Exchange.observed?, told = failure := by
  cases filed with
  | observed _ reported =>
      cases reported with
      | observed | suppressed | interrupted => exact fun told => List.mem_singleton.mp
      | unheard => exact fun told member => absurd member List.not_mem_nil
  | unobserved => exact fun told member => absurd member List.not_mem_nil

theorem Announced.tells {attempt : Nat} {reply : Except Failure Unit}
    (announced : Announced policy context failure attempt trace reply) :
    trace.filterMap Exchange.observed? = [] := by
  cases announced with
  | pauses | unheard => rfl

theorem pause_announced (signals : controller.signals = true) {attempt : Nat}
    {reply : Except Failure Unit}
    (run : (pause controller policy failure attempt context).Runs trace reply) :
    Announced policy context failure attempt trace reply := by
  refine announced_of_pause ?_
  unfold pause at run ⊢
  rw [signals] at run
  exact run

end Telemetry

section Runs

variable {α : Type} {controller : Controller} {operation : Action α} {policy : RetryPolicy}
variable {context : Context} {started : Int} {trace : List Exchange} {outcome : Except Failure α}

theorem giveUp_tried {number : Nat} {before after : List Exchange} {failure : Failure}
    (ran : operation.Runs before (.error failure)) (ordinary : failure.isOrdinary = true)
    (gives : (giveUp controller failure (number + 1) started context).Runs after outcome) :
    Tried controller operation policy context started number
      [⟨before, .error failure, after⟩] outcome := by
  rcases Action.runs_bind.mp gives with ⟨_, _, _, reports, throws, rfl⟩ | ⟨fault, lost, rfl⟩
  · obtain ⟨rfl, rfl⟩ := Action.runs_throw.mp throws
    rw [List.append_nil]
    exact .reported ran ordinary reports
  · exact .reported ran ordinary lost

theorem attemptOnce_tried {number : Nat} {next : Option (Unit → Action α)}
    (again : ∀ goesOn rest, next = some goesOn → (goesOn ()).Runs rest outcome →
      ∃ tries, rest = tries.flatMap Try.whole ∧
        Tried controller operation policy context started (number + 1) tries outcome)
    (run : (attemptOnce controller operation policy context started number next).Runs trace
      outcome) :
    ∃ tries, trace = tries.flatMap Try.whole ∧
      Tried controller operation policy context started number tries outcome := by
  have single (before after : List Exchange) (result : Except Failure α) :
      before ++ after = [⟨before, result, after⟩].flatMap Try.whole :=
    (List.append_nil _).symm
  unfold attemptOnce at run
  rcases Action.runs_bind.mp run with ⟨before, result, after, attempted, rest, rfl⟩ | ⟨_, lost, -⟩
  · obtain ⟨_, ran, same⟩ := Action.runs_attempt.mp attempted
    cases same
    cases result with
    | ok value =>
        obtain ⟨rfl, rfl⟩ := Action.runs_pure.mp rest
        exact ⟨_, single _ _ _, .succeeded ran⟩
    | error failure =>
        cases ordinary : failure.isOrdinary with
        | false =>
            simp only [ordinary, Bool.not_false, if_true] at rest
            obtain ⟨rfl, rfl⟩ := Action.runs_throw.mp rest
            exact ⟨_, single _ _ _, .interrupted ran ordinary⟩
        | true =>
            simp only [ordinary, Bool.not_true, Bool.false_eq_true, if_false] at rest
            cases next with
            | none => exact ⟨_, single _ _ _, giveUp_tried ran ordinary rest⟩
            | some goesOn =>
                cases permitted : failure.mayRetry policy.retryOn with
                | false =>
                    rw [permitted] at rest
                    exact ⟨_, single _ _ _, giveUp_tried ran ordinary rest⟩
                | true =>
                    rw [permitted] at rest
                    rcases Action.runs_bind.mp rest with
                      ⟨sequel, _, others, pauses, goes, rfl⟩ | ⟨fault, lost, rfl⟩
                    · obtain ⟨tries, rfl, tried⟩ := again goesOn others rfl goes
                      refine ⟨⟨before, .error failure, sequel⟩ :: tries, ?_,
                        .retried ran ordinary permitted pauses tried⟩
                      rw [List.flatMap_cons, Try.whole, List.append_assoc]
                    · exact ⟨_, single _ _ _, .stranded ran ordinary lost⟩
  · obtain ⟨_, -, impossible⟩ := Action.runs_attempt.mp lost
    cases impossible

theorem attemptFrom_tried {number more : Nat}
    (run : (attemptFrom controller operation policy context started number more).Runs trace
      outcome) :
    ∃ tries, trace = tries.flatMap Try.whole ∧
      Tried controller operation policy context started number tries outcome := by
  induction more generalizing number trace with
  | zero => exact attemptOnce_tried (fun _ _ absent => by cases absent) run
  | succ more ih =>
      refine attemptOnce_tried ?_ run
      rintro _ rest ⟨⟩ goes
      exact ih goes

/-- Every run reads the clock, and then it is a row of attempts. -/
theorem execute_tried (run : (execute controller operation policy context).Runs trace outcome) :
    ∃ started tries, trace = ⟨.now, started⟩ :: tries.flatMap Try.whole ∧
      Tried controller operation policy context started 0 tries outcome := by
  unfold execute at run
  rcases Action.runs_bind.mp run with ⟨_, started, rest, reads, attempts, rfl⟩ | ⟨_, lost, -⟩
  · obtain ⟨_, rfl, same⟩ := Action.runs_query.mp reads
    cases same
    obtain ⟨tries, rfl, tried⟩ := attemptFrom_tried attempts
    exact ⟨started, tries, rfl, tried⟩
  · obtain ⟨_, -, impossible⟩ := Action.runs_query.mp lost
    cases impossible

end Runs

section Members

variable {α : Type} {controller : Controller} {operation : Action α} {policy : RetryPolicy}
variable {context : Context} {started : Int} {number : Nat} {tries : List (Try α)}
variable {outcome : Except Failure α}

/-- What follows an attempt: nothing, a report of its failure, or the announcement of another one
because of it. -/
def Try.Followed (controller : Controller) (policy : RetryPolicy) (context : Context)
    (started : Int) (attempt : Try α) : Prop :=
  attempt.sequel = [] ∨ ∃ failure number reply, attempt.result = .error failure ∧
    ((report controller failure (number + 1) started context).Runs attempt.sequel reply ∨
      (pause controller policy failure number context).Runs attempt.sequel reply)

theorem Tried.member
    (tried : Tried controller operation policy context started number tries outcome) :
    ∀ attempt ∈ tries, operation.Runs attempt.trace attempt.result ∧
      attempt.Followed controller policy context started := by
  induction tried with
  | succeeded ran => exact List.forall_mem_singleton.mpr ⟨ran, Or.inl rfl⟩
  | interrupted ran => exact List.forall_mem_singleton.mpr ⟨ran, Or.inl rfl⟩
  | reported ran _ reports =>
      exact List.forall_mem_singleton.mpr ⟨ran, Or.inr ⟨_, _, _, rfl, Or.inl reports⟩⟩
  | stranded ran _ pauses =>
      exact List.forall_mem_singleton.mpr ⟨ran, Or.inr ⟨_, _, _, rfl, Or.inr pauses⟩⟩
  | retried ran _ _ pauses _ ih =>
      exact List.forall_mem_cons.mpr ⟨⟨ran, Or.inr ⟨_, _, _, rfl, Or.inr pauses⟩⟩, ih⟩

end Members

end Retry

end WebHarvest
