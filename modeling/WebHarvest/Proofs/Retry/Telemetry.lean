import WebHarvest.Proofs.Batch.Job
import WebHarvest.Proofs.Retry
import WebHarvest.Proofs.Signal.Emitter
import WebHarvest.Proofs.Simulation.Audience

/-!
# Retries that somebody hears of

Signals and the error observer change nothing about what an operation comes to, as long as no
emission is refused and no observer is interrupted. A refused emission ends the operation with its
own failure, in place of the operation's: no more attempts are made, and the failure that was to be
reported is lost.
-/

set_option autoImplicit false

namespace WebHarvest

namespace Exchange

/-- The result of an attempt at the operation. -/
def result? : Exchange → Option (Except Failure Value)
  | ⟨.perform _, reply⟩ => some reply
  | _ => none

/-- A pause, with what it comes to. -/
def sleep? : Exchange → Option (Int × Except Failure Unit)
  | ⟨.pause millis, reply⟩ => some (millis, reply)
  | _ => none

/-- The failure of an emission that is refused, or of an observer that is interrupted. -/
def breach? : Exchange → Option Failure
  | ⟨.emit .., .error fault⟩ => some fault
  | ⟨.observe .., .error fault⟩ => if fault.isOrdinary then none else some fault
  | _ => none

end Exchange

namespace Retry

/-- Nobody hears of retries and failures. -/
def Controller.silent : Controller := { signals := false, observer := false }

def results (trace : List Exchange) : List (Except Failure Value) := trace.filterMap (·.result?)

def sleeps (trace : List Exchange) : List (Int × Except Failure Unit) := trace.filterMap (·.sleep?)

def breaches (trace : List Exchange) : List Failure := trace.filterMap (·.breach?)

/-- The attempts and the pauses of a trace come to what a script says. -/
structure Follows (script : Attempts) (pauses : Int → Except Failure Unit)
    (trace : List Exchange) : Prop where
  attempted : ∀ number result, (results trace)[number]? = some result → result = script number
  paused : ∀ sleep ∈ sleeps trace, sleep.2 = pauses sleep.1

/-- The results of the attempts that an operation makes, and its pauses with what they come to. -/
structure Account where
  results : List (Except Failure Value)
  sleeps : List (Int × Except Failure Unit)

/-- What an operation under a policy does when nobody hears of it, from attempt number `attempt` on
and with so many more attempts after it. -/
def account (policy : RetryPolicy) (pauses : Int → Except Failure Unit) :
    Attempts → Nat → Nat → Account
  | script, _, 0 => ⟨[script 0], []⟩
  | script, attempt, more + 1 =>
      match script 0 with
      | .ok value => ⟨[.ok value], []⟩
      | .error failure =>
          if failure.isOrdinary && failure.mayRetry policy.retryOn then
            let delay := policy.delay attempt
            match pauses delay with
            | .ok () =>
                let rest := account policy pauses script.rest (attempt + 1) more
                ⟨.error failure :: rest.results, (delay, .ok ()) :: rest.sleeps⟩
            | .error fault => ⟨[.error failure], [(delay, .error fault)]⟩
          else ⟨[.error failure], []⟩

section Traces

variable {script : Attempts} {pauses : Int → Except Failure Unit} {before after : List Exchange}

@[simp] theorem results_append : results (before ++ after) = results before ++ results after :=
  List.filterMap_append

@[simp] theorem sleeps_append : sleeps (before ++ after) = sleeps before ++ sleeps after :=
  List.filterMap_append

@[simp] theorem breaches_append :
    breaches (before ++ after) = breaches before ++ breaches after :=
  List.filterMap_append

theorem Follows.rest {result : Except Failure Value}
    (follows : Follows script pauses (before ++ after)) (once : results before = [result]) :
    Follows script.rest pauses after where
  attempted number other found := by
    refine follows.attempted (number + 1) other ?_
    rw [results_append, once]
    exact found
  paused sleep member := by
    refine follows.paused sleep ?_
    rw [sleeps_append]
    exact List.mem_append_right _ member

end Traces

section Steps

variable {controller : Controller} {policy : RetryPolicy} {context : Context} {failure : Failure}
variable {trace : List Exchange}

/-- A part of a run that makes no attempt and no pause of its own: it succeeds, or it is cut short
by a breach. -/
structure Asides (controller : Controller) (trace : List Exchange)
    (outcome : Except Failure Unit) : Prop where
  results : results trace = []
  sleeps : sleeps trace = []
  unbroken : controller = .silent → breaches trace = []
  ends : breaches trace = [] ∧ outcome = .ok () ∨
    ∃ fault, breaches trace = [fault] ∧ outcome = .error fault

theorem asides_log (controller : Controller) {record : LogRecord} {outcome : Except Failure Unit}
    (run : (Action.log record).Runs trace outcome) : Asides controller trace outcome := by
  obtain ⟨rfl, rfl⟩ := log_runs.mp run
  exact ⟨rfl, rfl, fun _ => rfl, Or.inl ⟨rfl, rfl⟩⟩

theorem asides_nil : Asides controller [] (.ok ()) :=
  ⟨rfl, rfl, fun _ => rfl, Or.inl ⟨rfl, rfl⟩⟩

theorem asides_emit {kind : SignalKind} {payload : List (Value × Value)}
    {outcome : Except Failure Unit} (heard : controller.signals = true)
    (run : (Action.emit kind payload).Runs trace outcome) : Asides controller trace outcome := by
  obtain rfl := Action.runs_emit.mp run
  have loud : controller ≠ .silent := by
    rintro rfl
    cases heard
  cases outcome with
  | ok => exact ⟨rfl, rfl, fun silent => absurd silent loud, Or.inl ⟨rfl, rfl⟩⟩
  | error fault =>
      exact ⟨rfl, rfl, fun silent => absurd silent loud, Or.inr ⟨fault, rfl, rfl⟩⟩

/-- Ordinary failures of the observer are logged and go no further. -/
theorem asides_observe {details : List (Value × Value)} {record : Failure → LogRecord}
    {outcome : Except Failure Unit} (heard : controller.observer = true)
    (run : ((Action.observe failure details).recover Failure.isOrdinary fun fault =>
      Action.log (record fault)).Runs trace outcome) : Asides controller trace outcome := by
  have loud : controller ≠ .silent := by
    rintro rfl
    cases heard
  rcases Action.recover_runs run with
    ⟨_, told, rfl⟩ | ⟨fault, interrupts, lost, rfl⟩ | ⟨_, fault, _, ordinary, lost, handles, rfl⟩
  · obtain rfl := Action.runs_observe.mp told
    exact ⟨rfl, rfl, fun silent => absurd silent loud, Or.inl ⟨rfl, rfl⟩⟩
  · obtain rfl := Action.runs_observe.mp lost
    refine ⟨rfl, rfl, fun silent => absurd silent loud, Or.inr ⟨fault, ?_, rfl⟩⟩
    simp [breaches, Exchange.breach?, interrupts]
  · obtain rfl := Action.runs_observe.mp lost
    obtain ⟨rfl, rfl⟩ := log_runs.mp handles
    refine ⟨rfl, rfl, fun silent => absurd silent loud, Or.inl ⟨?_, rfl⟩⟩
    simp [breaches, Exchange.breach?, ordinary]

theorem Asides.append {before after : List Exchange} {outcome : Except Failure Unit}
    (first : Asides controller before (.ok ())) (second : Asides controller after outcome) :
    Asides controller (before ++ after) outcome where
  results := by rw [results_append, first.results, second.results, List.nil_append]
  sleeps := by rw [sleeps_append, first.sleeps, second.sleeps, List.nil_append]
  unbroken silent := by
    rw [breaches_append, first.unbroken silent, second.unbroken silent, List.nil_append]
  ends := by
    obtain ⟨whole, -⟩ | ⟨fault, -, impossible⟩ := first.ends
    · rw [breaches_append, whole, List.nil_append]
      exact second.ends
    · cases impossible

/-- An aside in front of another part: a breach ends both. -/
theorem asides_then {α : Type} {first : Action Unit} {next : Unit → Action α}
    {outcome : Except Failure α}
    (aside : ∀ {trace outcome}, first.Runs trace outcome → Asides controller trace outcome)
    (run : (first >>= next).Runs trace outcome) :
    (∃ before after, trace = before ++ after ∧ Asides controller before (.ok ()) ∧
      (next ()).Runs after outcome) ∨
    ∃ fault, Asides controller trace (.error fault) ∧ outcome = .error fault := by
  rcases Action.runs_bind.mp run with ⟨before, _, after, ran, rest, rfl⟩ | ⟨fault, lost, rfl⟩
  · exact Or.inl ⟨before, after, rfl, aside ran, rest⟩
  · exact Or.inr ⟨fault, aside lost, rfl⟩

theorem asides_when {α : Type} {condition : Bool} {first : Action Unit} {next : Unit → Action α}
    {outcome : Except Failure α}
    (aside : condition = true → ∀ {trace outcome}, first.Runs trace outcome →
      Asides controller trace outcome)
    (run : (if condition = true then first >>= next else next ()).Runs trace outcome) :
    (∃ before after, trace = before ++ after ∧ Asides controller before (.ok ()) ∧
      (next ()).Runs after outcome) ∨
    ∃ fault, Asides controller trace (.error fault) ∧ outcome = .error fault := by
  cases condition with
  | true => exact asides_then (aside rfl) run
  | false => exact Or.inl ⟨[], trace, rfl, asides_nil, run⟩

theorem pause_told {attempt : Nat} {outcome : Except Failure Unit}
    (run : (pause controller policy failure attempt context).Runs trace outcome) :
    (∃ before, trace = before ++ [⟨.pause (policy.delay attempt), outcome⟩] ∧
      Asides controller before (.ok ())) ∨
    ∃ fault, Asides controller trace (.error fault) ∧ outcome = .error fault := by
  unfold pause at run
  rcases asides_then (asides_log controller) run with ⟨logs, rest, rfl, logged, emits⟩ | lost
  · rcases asides_when (fun heard => asides_emit heard) emits with
      ⟨before, last, rfl, heard, pauses⟩ | ⟨fault, lost, rfl⟩
    · obtain rfl := Action.runs_pause.mp pauses
      exact Or.inl ⟨logs ++ before, (List.append_assoc ..).symm, logged.append heard⟩
    · exact Or.inr ⟨fault, logged.append lost, rfl⟩
  · exact Or.inr lost

theorem report_told {attempts : Nat} {started : Int} {outcome : Except Failure Unit}
    (run : (report controller failure attempts started context).Runs trace outcome) :
    Asides controller trace outcome := by
  unfold report at run
  rcases Action.runs_bind.mp run with ⟨_, duration, rest, measured, logs, rfl⟩ | ⟨_, lost, -⟩
  · obtain ⟨_, rfl, same⟩ := Action.runs_query.mp measured
    cases same
    have clock : Asides controller [⟨.elapsed started, duration⟩] (.ok ()) :=
      ⟨rfl, rfl, fun _ => rfl, Or.inl ⟨rfl, rfl⟩⟩
    refine clock.append ?_
    rcases asides_then (asides_log controller) logs with
      ⟨logs, rest, rfl, logged, emits⟩ | ⟨fault, lost, rfl⟩
    · refine logged.append ?_
      rcases asides_when (fun heard => asides_emit heard) emits with
        ⟨before, last, rfl, heard, shows⟩ | ⟨fault, lost, rfl⟩
      · refine heard.append ?_
        cases watched : controller.observer with
        | true =>
            rw [watched] at shows
            exact asides_observe watched shows
        | false =>
            rw [watched] at shows
            obtain ⟨rfl, rfl⟩ := Action.runs_pure.mp shows
            exact asides_nil
      · exact lost
    · exact lost
  · obtain ⟨_, _, impossible⟩ := Action.runs_query.mp lost
    cases impossible

theorem giveUp_told {α : Type} {attempts : Nat} {started : Int} {outcome : Except Failure α}
    (run : (giveUp controller failure attempts started context).Runs trace outcome) :
    ∃ reply, Asides controller trace reply ∧
      outcome = reply.bind fun _ => .error failure := by
  unfold giveUp at run
  rcases asides_then report_told run with ⟨before, rest, rfl, told, throws⟩ | ⟨fault, lost, rfl⟩
  · obtain ⟨rfl, rfl⟩ := Action.runs_throw.mp throws
    rw [List.append_nil]
    exact ⟨.ok (), told, rfl⟩
  · exact ⟨.error fault, lost, rfl⟩

end Steps

section Attempts

variable {controller : Controller} {policy : RetryPolicy} {context : Context} {name : String}
variable {script : Attempts} {pauses : Int → Except Failure Unit} {started : Int}

/-- A run of an operation is what the account of it says, up to its breach if there is one. -/
structure Told (controller : Controller) (account : Account) (verdict : Except Failure Value)
    (trace : List Exchange) (outcome : Except Failure Value) : Prop where
  unbroken : controller = .silent → breaches trace = []
  ends : breaches trace = [] ∧ results trace = account.results ∧ sleeps trace = account.sleeps ∧
      outcome = verdict ∨
    ∃ fault, breaches trace = [fault] ∧ results trace <+: account.results ∧
      sleeps trace <+: account.sleeps ∧ outcome = .error fault

theorem attemptOnce_told {attempt : Nat} {next : Option (Unit → Action Value)}
    {trace : List Exchange} {outcome : Except Failure Value}
    (run : (attemptOnce controller (Action.perform name) policy context started attempt next).Runs
      trace outcome) :
    ∃ result after, trace = [⟨.perform name, result⟩] ++ after ∧
      ((∀ failure, result = .error failure → failure.isOrdinary = true →
          failure.mayRetry policy.retryOn = true → next = none) ∧
        (∃ reply, Asides controller after reply ∧ outcome = reply.bind fun _ => result) ∨
      ∃ failure goesOn, result = .error failure ∧ failure.isOrdinary = true ∧
        failure.mayRetry policy.retryOn = true ∧ next = some goesOn ∧
        (pause controller policy failure attempt context >>= fun _ => goesOn ()).Runs after
          outcome) := by
  unfold attemptOnce at run
  rcases Action.runs_bind.mp run with ⟨before, result, after, attempted, rest, rfl⟩ | ⟨_, lost, -⟩
  · obtain ⟨_, ran, same⟩ := Action.runs_attempt.mp attempted
    cases same
    obtain rfl := Program.runs_request.mp ran
    refine ⟨result, after, rfl, ?_⟩
    cases result with
    | ok value =>
        obtain ⟨rfl, rfl⟩ := Action.runs_pure.mp rest
        exact Or.inl ⟨nofun, .ok (), asides_nil, rfl⟩
    | error failure =>
        cases ordinary : failure.isOrdinary with
        | false =>
            simp only [ordinary, Bool.not_false, if_true] at rest
            obtain ⟨rfl, rfl⟩ := Action.runs_throw.mp rest
            refine Or.inl ⟨?_, .ok (), asides_nil, rfl⟩
            rintro _ ⟨⟩ isOrdinary
            rw [ordinary] at isOrdinary
            cases isOrdinary
        | true =>
            simp only [ordinary, Bool.not_true, Bool.false_eq_true, if_false] at rest
            cases next with
            | none => exact Or.inl ⟨fun _ _ _ _ => rfl, giveUp_told rest⟩
            | some goesOn =>
                cases permitted : failure.mayRetry policy.retryOn with
                | false =>
                    rw [permitted] at rest
                    refine Or.inl ⟨?_, giveUp_told rest⟩
                    rintro _ ⟨⟩ _ mayRetry
                    rw [permitted] at mayRetry
                    cases mayRetry
                | true =>
                    rw [permitted] at rest
                    exact Or.inr ⟨failure, goesOn, rfl, ordinary, permitted, rfl, rest⟩
  · obtain ⟨_, -, impossible⟩ := Action.runs_attempt.mp lost
    cases impossible

/-- What follows the last attempt cannot add to the account. -/
theorem told_of_last {result outcome : Except Failure Value} {after : List Exchange}
    {reply : Except Failure Unit} (aside : Asides controller after reply)
    (same : outcome = reply.bind fun _ => result) :
    Told controller ⟨[result], []⟩ result ([⟨.perform name, result⟩] ++ after) outcome where
  unbroken := aside.unbroken
  ends := by
    have attempted : results ([⟨.perform name, result⟩] ++ after) = [result] := by
      rw [results_append, aside.results]
      rfl
    have paused : sleeps ([⟨.perform name, result⟩] ++ after) = [] := aside.sleeps
    rw [attempted, paused]
    obtain ⟨unbroken, rfl⟩ | ⟨fault, broken, rfl⟩ := aside.ends
    · exact Or.inl ⟨unbroken, rfl, rfl, same⟩
    · exact Or.inr ⟨fault, broken, List.prefix_rfl, List.prefix_rfl, same⟩

theorem account_of_last {attempt more : Nat} (policy : RetryPolicy)
    (last : ∀ failure, script 0 = .error failure → failure.isOrdinary = true →
      failure.mayRetry policy.retryOn = true → False) :
    account policy pauses script attempt (more + 1) = ⟨[script 0], []⟩ := by
  rw [account]
  cases came : script 0 with
  | ok value => rfl
  | error failure => exact if_neg (not_retried (last failure came))

theorem account_of_retry {attempt more : Nat} {policy : RetryPolicy} {failure : Failure}
    (came : script 0 = .error failure) (ordinary : failure.isOrdinary = true)
    (permitted : failure.mayRetry policy.retryOn = true)
    (slept : pauses (policy.delay attempt) = .ok ()) :
    let rest := account policy pauses script.rest (attempt + 1) more
    account policy pauses script attempt (more + 1) =
        ⟨.error failure :: rest.results, (policy.delay attempt, .ok ()) :: rest.sleeps⟩ ∧
      resolve policy pauses script attempt (more + 1) =
        resolve policy pauses script.rest (attempt + 1) more := by
  rw [account, resolve, came]
  simp only [ordinary, permitted, Bool.and_true, if_true, slept]
  exact ⟨trivial, rfl⟩

theorem account_of_sleepless {attempt more : Nat} {policy : RetryPolicy} {failure fault : Failure}
    (came : script 0 = .error failure) (ordinary : failure.isOrdinary = true)
    (permitted : failure.mayRetry policy.retryOn = true)
    (lost : pauses (policy.delay attempt) = .error fault) :
    account policy pauses script attempt (more + 1) =
        ⟨[.error failure], [(policy.delay attempt, .error fault)]⟩ ∧
      resolve policy pauses script attempt (more + 1) = .error fault := by
  rw [account, resolve, came]
  simp only [ordinary, permitted, Bool.and_true, if_true, lost]
  exact ⟨trivial, rfl⟩

/-- An attempt that fails, and the pause after it. -/
theorem told_front {before : List Exchange} (name : String) (result : Except Failure Value)
    (delay : Int) (reply : Except Failure Unit) (aside : Asides controller before (.ok ())) :
    let front := [⟨.perform name, result⟩] ++ before ++ [⟨.pause delay, reply⟩]
    results front = [result] ∧ sleeps front = [(delay, reply)] ∧ breaches front = [] := by
  intro front
  obtain ⟨unbroken, -⟩ | ⟨_, -, impossible⟩ := aside.ends
  · simp only [front, results_append, sleeps_append, breaches_append, aside.results, aside.sleeps,
      unbroken]
    exact ⟨rfl, rfl, rfl⟩
  · cases impossible

/-- The account of the rest is the rest of the account. -/
theorem Told.again {rest : Account} {verdict result outcome : Except Failure Value}
    {front after : List Exchange} {sleep : Int × Except Failure Unit}
    (told : Told controller rest verdict after outcome)
    (first : results front = [result] ∧ sleeps front = [sleep] ∧ breaches front = []) :
    Told controller ⟨result :: rest.results, sleep :: rest.sleeps⟩ verdict (front ++ after)
      outcome where
  unbroken silent := by
    rw [breaches_append, first.2.2, told.unbroken silent, List.nil_append]
  ends := by
    simp only [results_append, sleeps_append, breaches_append, first, List.singleton_append,
      List.nil_append, List.cons.injEq, true_and, List.prefix_cons_inj]
    exact told.ends

/-- A retry that is cut short: by a breach before its pause, or by a pause that fails. -/
theorem told_of_lost {attempt more : Nat} {after : List Exchange} {failure fault : Failure}
    (came : script 0 = .error failure) (ordinary : failure.isOrdinary = true)
    (permitted : failure.mayRetry policy.retryOn = true)
    (run : (pause controller policy failure attempt context).Runs after (.error fault))
    (follows : Follows script pauses ([⟨.perform name, .error failure⟩] ++ after)) :
    Told controller (account policy pauses script attempt (more + 1))
      (resolve policy pauses script attempt (more + 1))
      ([⟨.perform name, .error failure⟩] ++ after) (.error fault) := by
  obtain ⟨before, rfl, aside⟩ | ⟨_, aside, ⟨⟩⟩ := pause_told run
  · rw [← List.append_assoc] at follows ⊢
    obtain ⟨attempted, paused, unbroken⟩ :=
      told_front name (.error failure) (policy.delay attempt) (.error fault) aside
    have lost : .error fault = pauses (policy.delay attempt) := by
      refine follows.paused (policy.delay attempt, .error fault) ?_
      rw [paused]
      exact List.mem_cons_self
    obtain ⟨accounted, resolved⟩ := account_of_sleepless came ordinary permitted lost.symm
    rw [accounted, resolved]
    exact ⟨fun _ => unbroken, Or.inl ⟨unbroken, attempted, paused, rfl⟩⟩
  · refine ⟨aside.unbroken, ?_⟩
    obtain ⟨-, impossible⟩ | ⟨_, broken, ⟨⟩⟩ := aside.ends
    · cases impossible
    · refine Or.inr ⟨fault, broken, ?_, ?_, rfl⟩
      · rw [results_append, aside.results, List.append_nil, account, came]
        simp only [ordinary, permitted, Bool.and_true, if_true]
        cases pauses (policy.delay attempt) with
        | ok => exact ⟨_, rfl⟩
        | error other => exact ⟨_, rfl⟩
      · rw [sleeps_append, aside.sleeps, List.append_nil]
        exact List.nil_prefix

/-- Each attempt and each pause that is made stands in the account, and only a breach keeps the
rest of it from being done. -/
theorem attemptFrom_told {attempt more : Nat} {trace : List Exchange}
    {outcome : Except Failure Value}
    (run : (attemptFrom controller (Action.perform name) policy context started attempt more).Runs
      trace outcome)
    (follows : Follows script pauses trace) :
    Told controller (account policy pauses script attempt more)
      (resolve policy pauses script attempt more) trace outcome := by
  induction more generalizing attempt script trace with
  | zero =>
      rw [attemptFrom] at run
      obtain ⟨result, after, rfl, ⟨-, reply, aside, same⟩ | ⟨_, _, _, _, _, impossible, _⟩⟩ :=
        attemptOnce_told run
      · obtain rfl : result = script 0 := follows.attempted 0 result rfl
        exact told_of_last aside same
      · cases impossible
  | succ more ih =>
      rw [attemptFrom] at run
      obtain ⟨result, after, rfl, ⟨last, reply, aside, same⟩ |
        ⟨failure, _, rfl, ordinary, permitted, ⟨⟩, goesOn⟩⟩ := attemptOnce_told run
      · obtain rfl : result = script 0 := follows.attempted 0 result rfl
        have ended : ∀ failure, script 0 = .error failure → failure.isOrdinary = true →
            failure.mayRetry policy.retryOn = true → False :=
          fun failure came isOrdinary mayRetry => by cases last failure came isOrdinary mayRetry
        rw [account_of_last policy ended, resolve_of_last policy ended]
        exact told_of_last aside same
      · have came : script 0 = .error failure := (follows.attempted 0 _ rfl).symm
        rcases Action.runs_bind.mp goesOn with
          ⟨first, _, rest, waits, goes, rfl⟩ | ⟨fault, lost, rfl⟩
        · obtain ⟨before, rfl, aside⟩ | ⟨fault, -, impossible⟩ := pause_told waits
          · have first := told_front name (.error failure) (policy.delay attempt) (.ok ()) aside
            rw [← List.append_assoc, ← List.append_assoc] at follows ⊢
            have slept : .ok () = pauses (policy.delay attempt) := by
              refine follows.paused (policy.delay attempt, .ok ()) ?_
              rw [sleeps_append, first.2.1]
              exact List.mem_cons_self
            obtain ⟨accounted, resolved⟩ :=
              account_of_retry came ordinary permitted slept.symm
            rw [accounted, resolved]
            exact (ih goes (follows.rest first.1)).again first
          · cases impossible
        · exact told_of_lost came ordinary permitted lost follows

theorem execute_told {trace : List Exchange} {outcome : Except Failure Value}
    (run : (execute controller (Action.perform name) policy context).Runs trace outcome)
    (follows : Follows script pauses trace) :
    Told controller (account policy pauses script 0 (policy.maxAttempts - 1))
      (verdict policy pauses script) trace outcome := by
  unfold execute at run
  rcases Action.runs_bind.mp run with ⟨_, now, rest, reads, attempts, rfl⟩ | ⟨_, lost, -⟩
  · obtain ⟨_, rfl, same⟩ := Action.runs_query.mp reads
    cases same
    have told := attemptFrom_told attempts ⟨follows.attempted, follows.paused⟩
    exact ⟨told.unbroken, told.ends⟩
  · obtain ⟨_, -, impossible⟩ := Action.runs_query.mp lost
    cases impossible

end Attempts

section Scripts

theorem exists_split_of_filterMap {α β : Type} {pick : α → Option β} {items : List α} {place : Nat}
    {picked : β} (found : (items.filterMap pick)[place]? = some picked) :
    ∃ before item after, items = before ++ item :: after ∧ pick item = some picked ∧
      (before.filterMap pick).length = place := by
  induction items generalizing place with
  | nil => cases found
  | cons first rest ih =>
      cases own : pick first with
      | none =>
          rw [List.filterMap_cons_none own] at found
          obtain ⟨before, item, after, rfl, here, count⟩ := ih found
          exact ⟨first :: before, item, after, rfl, here, by
            rwa [List.filterMap_cons_none own]⟩
      | some own' =>
          rw [List.filterMap_cons_some own] at found
          cases place with
          | zero =>
              obtain rfl := Option.some.inj found
              exact ⟨[], first, rest, rfl, own, rfl⟩
          | succ place =>
              obtain ⟨before, item, after, rfl, here, count⟩ := ih found
              exact ⟨first :: before, item, after, rfl, here, by
                rw [List.filterMap_cons_some own, List.length_cons, count]⟩

/-- The replies of a host whose operations and pauses follow a script, whatever its emissions and
its observer come to after what has happened before. -/
def scripted (script : Attempts) (pauses : Int → Except Failure Unit)
    (emits observes : List Exchange → Except Failure Unit) (past : List Exchange) :
    (request : Request) → request.Reply
  | .perform _ => script (results past).length
  | .pause millis => pauses millis
  | .emit .. => emits past
  | .observe .. => observes past
  | .now => (0 : Int)
  | .elapsed _ => (0 : Int)
  | .log _ => ()
  | .takeSlot .. => .ok ()
  | .beginCount => (0 : Nat)
  | .countSettled _ => (0 : Nat)
  | .progress .. => .ok ()
  | .browser _ => .ok .null
  | .pageUrl _ => ""
  | .makeParents _ => .ok ()
  | .writeFile .. => .ok ()
  | .readFile _ => .ok ""
  | .saveSession .. => .ok ""
  | .loadSession _ => .ok .null
  | .sessionPath _ => .ok ""

variable {script : Attempts} {pauses : Int → Except Failure Unit}
variable {emits observes : List Exchange → Except Failure Unit} {trace : List Exchange}

theorem follows_of_scripted
    (answered : ∀ before exchange after, trace = before ++ exchange :: after →
      exchange.reply = scripted script pauses emits observes before exchange.request) :
    Follows script pauses trace where
  attempted number result found := by
    obtain ⟨before, ⟨request, reply⟩, after, split, isResult, rfl⟩ :=
      exists_split_of_filterMap found
    have told := answered before _ after split
    cases request with
    | perform name =>
        obtain rfl := Option.some.inj isResult
        exact told
    | _ => cases isResult
  paused sleep member := by
    obtain ⟨⟨request, reply⟩, isExchange, isSleep⟩ := List.mem_filterMap.mp member
    obtain ⟨before, after, split⟩ := List.append_of_mem isExchange
    have told := answered before _ after split
    cases request with
    | pause millis =>
        obtain rfl := Option.some.inj isSleep
        exact told
    | _ => cases isSleep

end Scripts

/-- Whether an emission succeeds is up to the ledger alone, and not to the subscribers, whatever
they do and however they fail. -/
theorem emit_written {σ : Type} [BEq σ] (react : σ → Signal → Signal.Reaction σ) (steps : Nat)
    (audience : Simulation.Audience σ) (now : Int) (kind : SignalKind) (entries : Record) :
    ∃ signal, audience.traffic.emitter.signalOf (audience.world.calendar now) kind
        (.record entries) = .ok signal ∧
      (audience.emit react steps now kind (entries.map fun (key, value) => (.text key, value))).2 =
        (audience.traffic.emitter.writeLine audience.traffic.files signal).2 := by
  let time := audience.world.calendar now
  obtain ⟨signal, made⟩ := audience.traffic.emitter.signalOf_record time kind entries
  refine ⟨signal, made, ?_⟩
  change ((audience.traffic.emit time kind (Value.record entries)).2.map fun _ => ()) = _
  rw [Signal.Traffic.emit, Emitter.publish_of_signal made]
  cases (audience.traffic.emitter.writeLine audience.traffic.files signal).2 with
  | ok => rfl
  | error failure => rfl

/-- What an operation under a policy comes to does not depend on who hears of it: with an emitter
and an observer it makes the same attempts and the same pauses as without them and has the same
outcome, unless an emission is refused or the observer is interrupted. Then it ends with that
failure, short of what it would have done. An emission is refused when its line cannot be added to
the ledger, and never because of a subscriber. -/
theorem execute_telemetry (controller : Controller) (name : String) (policy : RetryPolicy)
    (context : Context) (script : Attempts) (pauses : Int → Except Failure Unit) :
    (∀ trace outcome quiet alone,
      (execute controller (Action.perform name) policy context).Runs trace outcome →
      Follows script pauses trace →
      (execute .silent (Action.perform name) policy context).Runs quiet alone →
      Follows script pauses quiet →
      breaches quiet = [] ∧
      (breaches trace = [] →
        outcome = alone ∧ results trace = results quiet ∧ sleeps trace = sleeps quiet) ∧
      ∀ fault ∈ breaches trace,
        outcome = .error fault ∧ results trace <+: results quiet ∧
          sleeps trace <+: sleeps quiet) ∧
    (∀ emits observes : List Exchange → Except Failure Unit, ∃ trace outcome,
      (execute controller (Action.perform name) policy context).Runs trace outcome ∧
      Follows script pauses trace ∧
      ∀ before exchange after, trace = before ++ exchange :: after →
        exchange.reply = scripted script pauses emits observes before exchange.request) ∧
    ∀ {σ : Type} [BEq σ] (react : σ → Signal → Signal.Reaction σ) (steps : Nat)
      (audience : Simulation.Audience σ) (now : Int) (kind : SignalKind) (entries : Record),
      ∃ signal, audience.traffic.emitter.signalOf (audience.world.calendar now) kind
          (.record entries) = .ok signal ∧
        (audience.emit react steps now kind
            (entries.map fun (key, value) => (.text key, value))).2 =
          (audience.traffic.emitter.writeLine audience.traffic.files signal).2 := by
  refine ⟨fun trace outcome quiet alone run follows silence followsToo => ?_,
    fun emits observes => ?_, fun react steps audience now kind entries =>
      emit_written react steps audience now kind entries⟩
  · have told := execute_told run follows
    have toldAlone := execute_told silence followsToo
    have unbroken := toldAlone.unbroken rfl
    obtain ⟨-, attempted, paused, rfl⟩ | ⟨fault, broken, -⟩ := toldAlone.ends
    · refine ⟨unbroken, fun whole => ?_, fun fault broken => ?_⟩
      · obtain ⟨-, same⟩ | ⟨fault, broken, -⟩ := told.ends
        · rw [attempted, paused]
          exact ⟨same.2.2, same.1, same.2.1⟩
        · rw [whole] at broken
          cases broken
      · obtain ⟨whole, -⟩ | ⟨other, once, cut⟩ := told.ends
        · rw [whole] at broken
          cases broken
        · rw [once] at broken
          obtain rfl := List.mem_singleton.mp broken
          rw [attempted, paused]
          exact ⟨cut.2.2, cut.1, cut.2.1⟩
    · rw [unbroken] at broken
      cases broken
  · obtain ⟨trace, outcome, run, answered⟩ :=
      (execute controller (Action.perform name) policy context).run.exists_run
        (scripted script pauses emits observes) []
    exact ⟨trace, outcome, run, follows_of_scripted answered, answered⟩

/-- An operation that fails once and then succeeds. Alone it is retried; with a ledger that cannot
be opened it ends with the failure of the ledger. -/
theorem execute_telemetry_unwritable :
    let policy : RetryPolicy := { maxAttempts := 2, backoff := .linear, baseDelayMs := 10 }
    let late : Failure := .raise .timeout "late"
    let closed : Failure := .file .isADirectory "ledger"
    let script : Attempts := fun number => if number = 0 then .error late else .ok .null
    let pauses : Int → Except Failure Unit := fun _ => .ok ()
    ∃ record,
      let trace : List Exchange :=
        [⟨.now, (0 : Int)⟩, ⟨.perform "load", .error late⟩, ⟨.log record, ()⟩,
          ⟨.emit .retryAttempt (retryPayload policy [] late 0), .error closed⟩]
      let quiet : List Exchange :=
        [⟨.now, (0 : Int)⟩, ⟨.perform "load", .error late⟩, ⟨.log record, ()⟩,
          ⟨.pause (policy.delay 0), .ok ()⟩, ⟨.perform "load", .ok .null⟩]
      (execute .full (Action.perform "load") policy []).Runs trace (.error closed) ∧
        Follows script pauses trace ∧
        (execute .silent (Action.perform "load") policy []).Runs quiet (.ok .null) ∧
        Follows script pauses quiet ∧
        breaches quiet = [] ∧ breaches trace = [closed] ∧
        results trace <+: results quiet ∧ sleeps trace <+: sleeps quiet := by
  intro policy late closed script pauses
  have runs : ∃ record,
      (execute .full (Action.perform "load") policy []).Runs
          [⟨.now, (0 : Int)⟩, ⟨.perform "load", .error late⟩, ⟨.log record, ()⟩,
            ⟨.emit .retryAttempt (retryPayload policy [] late 0), .error closed⟩]
          (.error closed) ∧
        (execute .silent (Action.perform "load") policy []).Runs
          [⟨.now, (0 : Int)⟩, ⟨.perform "load", .error late⟩, ⟨.log record, ()⟩,
            ⟨.pause (policy.delay 0), .ok ()⟩, ⟨.perform "load", .ok .null⟩]
          (.ok .null) :=
    ⟨_, .ask _ (.ask _ (.ask _ (.ask _ (.done _)))),
      .ask _ (.ask _ (.ask _ (.ask _ (.ask _ (.done _)))))⟩
  obtain ⟨record, run, alone⟩ := runs
  have follows : Follows script pauses
      [⟨.now, (0 : Int)⟩, ⟨.perform "load", .error late⟩, ⟨.log record, ()⟩,
        ⟨.emit .retryAttempt (retryPayload policy [] late 0), .error closed⟩] := by
    refine ⟨fun number result found => ?_, nofun⟩
    match number with
    | 0 => cases found; rfl
    | _ + 1 => cases found
  have followsAlone : Follows script pauses
      [⟨.now, (0 : Int)⟩, ⟨.perform "load", .error late⟩, ⟨.log record, ()⟩,
        ⟨.pause (policy.delay 0), .ok ()⟩, ⟨.perform "load", .ok .null⟩] := by
    refine ⟨fun number result found => ?_, fun sleep member => ?_⟩
    · match number with
      | 0 => cases found; rfl
      | 1 => cases found; rfl
      | _ + 2 => cases found
    · obtain rfl := List.mem_singleton.mp member
      rfl
  obtain ⟨compare, -⟩ := execute_telemetry .full "load" policy [] script pauses
  obtain ⟨unbroken, -, cut⟩ := compare _ _ _ _ run follows alone followsAlone
  obtain ⟨-, fewer, shorter⟩ := cut closed (List.mem_singleton_self closed)
  exact ⟨record, run, follows, alone, followsAlone, unbroken, rfl, fewer, shorter⟩

end Retry

end WebHarvest
