import WebHarvest.Options
import WebHarvest.Program.Basic

/-!
# Retries

An operation is tried until it succeeds, the policy's attempts are used up, or a failure is of a
kind that the policy does not allow to retry. Attempts run strictly one after another, with a pause
in between that grows with their number. The last failure is reported, then it goes on to the
caller.
-/

set_option autoImplicit false

namespace WebHarvest

def BackoffStrategy.ofValue (value : Value) : Except Failure BackoffStrategy :=
  Failure.member "BackoffStrategy" BackoffStrategy.all BackoffStrategy.name value

/-- The pause after the failed attempt number `attempt`, counted from zero: the base delay times a
growing factor, but never more than the cap. -/
def backoffDelay (strategy : BackoffStrategy) (attempt : Nat) (cap base : Int) : Int :=
  let factor : Int := match strategy with
    | .linear => attempt + 1
    | .exponential => Nat.pow 2 attempt
  min (base * factor) cap

/-- A half to the power of a positive number; it is zero when there is no number so small. -/
def halfToThe (power : Nat) : Double :=
  if 1100 < power then Double.zero false else Double.ofScaled 1 (-(power : Int)) false

/-- The delay for any number of an attempt. Below zero the factor is a power of a half, so that an
exponential delay is a floating-point number, unless the cap is smaller. -/
def backoff (strategy : BackoffStrategy) (attempt cap base : Int) : Except Failure Value := do
  match strategy, attempt with
  | _, .ofNat attempt => return .int (backoffDelay strategy attempt cap base)
  | .linear, attempt => return .int (min (base * (attempt + 1)) cap)
  | .exponential, attempt =>
      let _ ← TimeScale.numberOf attempt
      let delay := (← TimeScale.numberOf base).mul (halfToThe attempt.natAbs)
      return if delay.compareInt cap == some .gt then .int cap else .float delay

def RetryPolicy.delay (policy : RetryPolicy) (attempt : Nat) : Int :=
  backoffDelay policy.backoff attempt policy.maxBackoffMs policy.baseDelayMs

/-- Whether a failure may be retried: always without an allow-list, else when its kind is on it. -/
def Failure.mayRetry (failure : Failure) : Option (List String) → Bool
  | none => true
  | some kinds => kinds.contains failure.kind

namespace Retry

def logger : String := componentLogger "resilience.retry"

/-- Who hears about retries and failures, apart from the log. -/
structure Controller where
  signals : Bool := true
  observer : Bool := false
  deriving DecidableEq, Repr

/-- What an operation is about: entries that go into its signals and its error report. -/
abbrev Context := List (Value × Value)

def entry (context : Context) (key : String) : Value := (Value.lookup? key context).getD .null

/-- Puts an entry into a context, in place of the one with the same name. -/
def putEntry (key : String) (value : Value) : Context → Context
  | [] => [(.text key, value)]
  | (.text k, v) :: rest =>
      if k == key then (.text k, value) :: rest else (.text k, v) :: putEntry key value rest
  | entry :: rest => entry :: putEntry key value rest

def extend (context : Context) (entries : Record) : Context :=
  entries.foldl (fun context (key, value) => putEntry key value context) context

/-- Reports a failure that ends an operation: to the log, to the subscribers, and to the observer,
whose own failures are suppressed. -/
def report (controller : Controller) (failure : Failure) (attempts : Nat) (started : Int)
    (context : Context) : Action Unit := do
  let duration ← Action.elapsed started
  let details := extend context
    [("attempts", .ofNat attempts), ("duration_ms", .int duration),
      ("error_kind", .text failure.kind)]
  let target := entry context "url"
  let operation := entry context "operation"
  Action.log <|
    structuredError logger .operationFailed failure.message false target operation (.map details)
  if controller.signals then Action.emit .operationFailed details
  if controller.observer then
    (Action.observe failure details).recover Failure.isOrdinary fun fault => 
      Action.log <|
        structuredError logger .errorObserverFailed fault.message true target operation

def pause (controller : Controller) (policy : RetryPolicy) (failure : Failure) (attempt : Nat)
    (context : Context) : Action Unit := do
  let delay := policy.delay attempt
  let operation := (Value.lookup? "operation" context).elim "operation" Value.shown
  Action.log <| .warning logger
    ("Retrying " ++ operation ++ " after " ++ failure.kind ++ " (attempt " ++
      toString (attempt + 1) ++ "/" ++ toString policy.maxAttempts ++ ", delay " ++
      toString delay ++ "ms)")
    [("url", entry context "url"), ("error_message", .text failure.message)]
  if controller.signals then
    Action.emit .retryAttempt <| extend context
      [("attempt", .ofNat attempt), ("max_attempts", .ofNat policy.maxAttempts),
        ("delay_ms", .int delay), ("error_kind", .text failure.kind)]
  Action.pause delay

def giveUp {α : Type} (controller : Controller) (failure : Failure) (attempts : Nat) (started : Int)
    (context : Context) : Action α := do
  report controller failure attempts started context
  throw failure

/-- Makes one attempt. After a failure that may be retried it goes on with `next`, if there is
one. -/
def attemptOnce {α : Type} (controller : Controller) (operation : Action α) (policy : RetryPolicy)
    (context : Context) (started : Int) (attempt : Nat) (next : Option (Unit → Action α)) :
    Action α := do
  match ← operation.attempt with
  | .ok result => return result
  | .error failure =>
      if !failure.isOrdinary then throw failure
      else
        match next, failure.mayRetry policy.retryOn with
        | some next, true =>
            pause controller policy failure attempt context
            next ()
        | _, _ => giveUp controller failure (attempt + 1) started context

/-- Makes attempt number `attempt` and, as far as needed, so many more after it. -/
def attemptFrom {α : Type} (controller : Controller) (operation : Action α) (policy : RetryPolicy)
    (context : Context) (started : Int) (attempt : Nat) : Nat → Action α
  | 0 => attemptOnce controller operation policy context started attempt none
  | more + 1 =>
      attemptOnce controller operation policy context started attempt <| some fun _ =>
        attemptFrom controller operation policy context started (attempt + 1) more

def execute {α : Type} (controller : Controller) (operation : Action α) (policy : RetryPolicy)
    (context : Context) : Action α := do
  let started ← Action.now
  attemptFrom controller operation policy context started 0 (policy.maxAttempts - 1)

end Retry

end WebHarvest
