import WebHarvest.Harvester.Basic
import WebHarvest.Proofs.Browser.Guard

/-!
# What is asked for, and by whom

The limiter is asked when a target is acquired and at no other time; pauses, the signals of retries
and failures, and the observer belong to the retries; pages belong to the attempts.
-/

set_option autoImplicit false

namespace WebHarvest

namespace Request

def isSlot : Request → Bool
  | .takeSlot .. => true
  | _ => false

/-- Requests between attempts, and after the last one. -/
def isRetry : Request → Bool
  | .now | .elapsed _ | .pause _ | .log _ | .observe .. => true
  | .emit kind _ => kind == .retryAttempt || kind == .operationFailed
  | _ => false

/-- Requests within an attempt. -/
def isAttempt : Request → Bool
  | .now | .elapsed _ | .log _ | .browser _ | .makeParents _ => true
  | .emit kind _ => kind == .extractionComplete
  | _ => false

/-- The request makes no call to the engine. -/
def IsApart (request : Request) : Prop := ∀ call, request ≠ .browser call

theorem isApart_of_isSlot (request : Request) (own : request.isSlot = true) :
    request.IsApart := by
  rintro call rfl
  cases own

theorem isApart_of_isRetry (request : Request) (own : request.isRetry = true) :
    request.IsApart := by
  rintro call rfl
  cases own

/-- Requests that are made while a page is open, which is not closed by them. -/
def OnPage (page : Browser.PageId) : Request → Prop
  | .log _ | .makeParents _ => True
  | .browser call => call.page? = some page ∧ call ≠ .closePage page
  | _ => False

end Request

namespace Action

/-- What holds of an action as soon as it holds of the actions that it is composed of. -/
structure Composes (good : (α : Type) → Action α → Prop) : Prop where
  pure : ∀ (α : Type) (result : α), good α (pure result)
  throw : ∀ (α : Type) (failure : Failure), good α (throw failure)
  bind : ∀ (α β : Type) (action : Action α) (next : α → Action β), good α action →
    (∀ result, good β (next result)) → good β (action >>= next)
  attempt : ∀ (α : Type) (action : Action α), good α action → good _ action.attempt

theorem asks_composes (allowed : Request → Prop) : Composes fun _ action => action.Asks allowed where
  pure _ := asks_pure
  throw _ := asks_throw
  bind _ _ _ _ := asks_bind
  attempt _ _ := asks_attempt

end Action

namespace Retry

variable {α : Type} {controller : Controller} {policy : RetryPolicy} {context : Context}

theorem report_asks (failure : Failure) (attempts : Nat) (started : Int) :
    (report controller failure attempts started context).Asks (·.isRetry = true) := by
  unfold report
  refine Action.asks_bind (Action.asks_query rfl) fun duration => ?_
  refine Action.asks_bind (Action.asks_log rfl) fun _ => ?_
  have observes : ∀ details, Action.Asks (·.isRetry = true) (if controller.observer then
      (Action.observe failure details).recover Failure.isOrdinary fun fault => Action.log
        (structuredError logger .errorObserverFailed fault.message true (entry context "url")
          (entry context "operation"))
      else pure ()) := fun details => Action.asks_if
    (Action.asks_recover (Action.asks_observe rfl) fun fault => Action.asks_log rfl)
    (Action.asks_pure ())
  exact Action.asks_if
    (Action.asks_bind (Action.asks_emit rfl) fun _ => observes _) (observes _)

theorem pause_asks (failure : Failure) (attempt : Nat) :
    (pause controller policy failure attempt context).Asks (·.isRetry = true) := by
  unfold pause
  refine Action.asks_bind (Action.asks_log rfl) fun _ => ?_
  have pauses : (Action.pause (policy.delay attempt)).Asks (·.isRetry = true) :=
    Action.asks_pause rfl
  exact Action.asks_if (Action.asks_bind (Action.asks_emit rfl) fun _ => pauses) pauses

theorem giveUp_asks (failure : Failure) (attempts : Nat) (started : Int) :
    (giveUp controller failure attempts started context : Action α).Asks (·.isRetry = true) :=
  Action.asks_bind (report_asks failure attempts started) fun _ => Action.asks_throw failure

section Compositions

variable {good : (α : Type) → Action α → Prop} (composes : Action.Composes good)
variable (retries : ∀ (α : Type) (action : Action α), action.Asks (·.isRetry = true) →
  good α action)
variable {operation : Action α} (holds : good α operation)

include composes retries holds

theorem attemptOnce_composes (started : Int) (attempt : Nat) {next : Option (Unit → Action α)}
    (again : ∀ goesOn, next = some goesOn → good α (goesOn ())) :
    good α (attemptOnce controller operation policy context started attempt next) := by
  unfold attemptOnce
  refine composes.bind _ _ _ _ (composes.attempt _ _ holds) fun outcome => ?_
  cases outcome with
  | ok result => exact composes.pure _ result
  | error failure =>
      have gives := retries α _
        (@giveUp_asks α controller context failure (attempt + 1) started)
      dsimp only
      split
      · exact composes.throw _ failure
      · split
        · exact composes.bind _ _ _ _ (retries _ _ (pause_asks failure attempt)) fun _ =>
            again _ rfl
        · exact gives

theorem attemptFrom_composes (started : Int) (attempt more : Nat) :
    good α (attemptFrom controller operation policy context started attempt more) := by
  induction more generalizing attempt with
  | zero =>
      exact attemptOnce_composes composes retries holds started attempt fun _ absent => by
        cases absent
  | succ more ih =>
      refine attemptOnce_composes composes retries holds started attempt ?_
      rintro _ ⟨⟩
      exact ih (attempt + 1)

/-- What holds of the attempts, and of whatever makes the requests of retries only, holds of all
attempts together. -/
theorem execute_composes : good α (execute controller operation policy context) :=
  composes.bind _ _ _ _ (retries _ _ (Action.asks_query rfl)) fun started =>
    attemptFrom_composes composes retries holds started 0 _

end Compositions

theorem execute_asks {allowed : Request → Prop}
    (permits : ∀ request, request.isRetry = true → allowed request) {operation : Action α}
    (asks : operation.Asks allowed) : (execute controller operation policy context).Asks allowed :=
  execute_composes (Action.asks_composes allowed) (fun _ _ own => own.mono permits) asks

end Retry

theorem acquire_asks (target : String) : (acquire target).Asks (·.isSlot = true) :=
  Action.asks_forM fun _ _ => Action.asks_takeSlot rfl

namespace Harvester

open Browser (Layer PageId guard_asks)

variable (layer : Layer) (page : PageId) (url selector : String) (options : HarvestOptions)

/-- Requests of an attempt while its page is open. What it waits for has the timeouts that the layer
makes of the options. -/
inductive OfVisit : Request → Prop where
  | logs (record : LogRecord) : OfVisit (.log record)
  | makesParents (path : String) : OfVisit (.makeParents path)
  | goes : OfVisit (.browser (.goto page url (some options.waitUntil)
      (layer.timeout (options.timeoutMs.map Int.ofNat))))
  | loads (state : String) : OfVisit (.browser (.waitForLoadState page state
      (layer.timeout (options.timeoutMs.map Int.ofNat))))
  | waits (selector : String) : OfVisit (.browser (.waitForSelector page selector
      (some options.waitForSelector.state) (layer.timeout (waitTimeout options))))
  | extracts (selector : String) (schema : CompiledSchema Value) :
      OfVisit (.browser (.extractAll page selector schema))
  | evaluates (source : String) (argument : Value) :
      OfVisit (.browser (.evaluate page source argument))
  | captures (shot : Record) : OfVisit (.browser (.screenshot page shot))

theorem OfVisit.onPage {request : Request} (own : OfVisit layer page url options request) :
    request.OnPage page := by
  cases own with
  | logs | makesParents => exact trivial
  | goes | loads | waits | extracts | evaluates | captures => exact ⟨rfl, nofun⟩

theorem visit_asks : (visit layer page url options).Asks (OfVisit layer page url options) := by
  simp only [visit, Browser.navigate_eq, Browser.waitForLoadState_eq]
  refine Action.asks_bind (Action.asks_bind (Action.asks_log (.logs _)) fun _ =>
    Action.asks_bind (guard_asks .goes) fun _ => Action.asks_pure ()) fun _ => ?_
  cases options.waitForLoadState with
  | none => exact Action.asks_pure ()
  | some state =>
      exact Action.asks_if
        (Action.asks_bind (guard_asks (.loads state)) fun _ => Action.asks_pure ())
        (Action.asks_pure ())

theorem captureImage_asks (shot : ScreenshotOptions) :
    (Browser.captureImage page url shot).Asks (OfVisit layer page url options) := by
  rw [Browser.captureImage_eq]
  refine Action.asks_bind ?_ fun _ => guard_asks (.captures _)
  cases shot.path with
  | none => exact Action.asks_pure ()
  | some path => exact Action.asks_makeParents (.makesParents path)

/-- What is done on the page of an attempt to extract records. -/
def extraction (schema : CompiledSchema Value) : Action Value := do
  visit layer page url options
  layer.waitForMatch page url selector options.waitForSelector.state (waitTimeout options)
  let records ← Browser.extract page url selector schema
  if let some shot := options.screenshot then
    let _ ← Browser.captureImage page url shot
  return records

def evaluation (source : String) : Action Value := do
  visit layer page url options
  Browser.evaluate page url source

def capture (shot : ScreenshotOptions) : Action Value := do
  visit layer page url options
  Browser.captureImage page url shot

theorem extraction_asks (schema : CompiledSchema Value) :
    (extraction layer page url selector options schema).Asks (OfVisit layer page url options) := by
  unfold extraction
  rw [Browser.waitForMatch_eq, Browser.extract_eq]
  refine Action.asks_bind (visit_asks layer page url options) fun _ => ?_
  refine Action.asks_bind (Action.asks_bind (guard_asks (.waits selector)) fun _ =>
    Action.asks_pure ()) fun _ => ?_
  refine Action.asks_bind (guard_asks (.extracts selector schema)) fun records => ?_
  cases options.screenshot with
  | none => exact Action.asks_pure records
  | some shot =>
      exact Action.asks_bind (captureImage_asks layer page url options shot) fun _ =>
        Action.asks_pure records

theorem evaluation_asks (source : String) :
    (evaluation layer page url options source).Asks (OfVisit layer page url options) := by
  unfold evaluation
  rw [Browser.evaluate_eq]
  exact Action.asks_bind (visit_asks layer page url options) fun _ =>
    guard_asks (.evaluates source _)

theorem capture_asks (shot : ScreenshotOptions) :
    (capture layer page url options shot).Asks (OfVisit layer page url options) :=
  Action.asks_bind (visit_asks layer page url options) fun _ =>
    captureImage_asks layer page url options shot

variable {page}

theorem withPage_asks {allowed : Request → Prop} {body : PageId → Action Value}
    (opens : allowed (.browser .newPage)) (closes : ∀ page, allowed (.browser (.closePage page)))
    (asks : ∀ page, (body page).Asks allowed) : (layer.withPage body).Asks allowed := by
  unfold Layer.withPage Layer.openPage Layer.requireContext
  have required : Action.Asks allowed (if layer.started then pure () else
      throw (.harvest .navigation "Browser not started" none (some "new_page") none none) :
        Action Unit) := Action.asks_if (Action.asks_pure ()) (Action.asks_throw _)
  refine Action.asks_bind (Action.asks_bind required fun _ =>
    Action.asks_bind (Action.asks_browser opens) fun _ => Action.asks_pure _) fun page => ?_
  refine Action.asks_ensuring (asks page) ?_
  exact Action.asks_bind (Action.asks_browser (closes page)) fun _ => Action.asks_pure ()

/-- What an attempt to extract records does when its page has been closed. -/
def announce (schema : CompiledSchema Value) (started : Int) (records : Value) :
    Action Value := do
  let duration ← Action.elapsed started
  let count ← Action.settle (lengthOf records)
  Action.log <| .info logger ("Extracted " ++ toString count ++ " records from " ++ url)
    [("url", .text url), ("selector", .text selector), ("duration_ms", .int duration)]
  Action.emit .extractionComplete
    [(.text "url", .text url), (.text "selector", .text selector),
      (.text "records", .ofNat count), (.text "mode", .text schema.mode.name),
      (.text "duration_ms", .int duration)]
  return records

theorem extractOnce_eq (schema : CompiledSchema Value) :
    extractOnce layer url selector schema options =
      Action.now >>= fun started =>
        layer.withPage (fun page => extraction layer page url selector options schema) >>=
          fun records => announce url selector schema started records := rfl

theorem announce_asks (schema : CompiledSchema Value) (started : Int) (records : Value) :
    (announce url selector schema started records).Asks
      fun request => request.isAttempt = true ∧ request.IsApart := by
  unfold announce
  refine Action.asks_bind (Action.asks_query ⟨rfl, by rintro _ ⟨⟩⟩) fun duration => ?_
  refine Action.asks_bind (Action.asks_settle _) fun count => ?_
  refine Action.asks_bind (Action.asks_log ⟨rfl, by rintro _ ⟨⟩⟩) fun _ => ?_
  exact Action.asks_bind (Action.asks_emit ⟨rfl, by rintro _ ⟨⟩⟩) fun _ => Action.asks_pure records

/-- Requests of an attempt: those with its page, and those apart from it. -/
inductive OfAttempt (layer : Layer) (url : String) (options : HarvestOptions) : Request → Prop where
  | opens : OfAttempt layer url options (.browser .newPage)
  | visits {page : PageId} {request : Request} (own : OfVisit layer page url options request) :
      OfAttempt layer url options request
  | closes (page : PageId) : OfAttempt layer url options (.browser (.closePage page))
  | apart {request : Request} (own : request.isAttempt = true) (apart : request.IsApart) :
      OfAttempt layer url options request

theorem OfAttempt.isAttempt {request : Request} (own : OfAttempt layer url options request) :
    request.isAttempt = true := by
  cases own with
  | opens | closes => rfl
  | visits own =>
      cases own with
      | _ => rfl
  | apart own => exact own

theorem withPage_attempts {body : PageId → Action Value}
    (asks : ∀ page, (body page).Asks (OfVisit layer page url options)) :
    (layer.withPage body).Asks (OfAttempt layer url options) :=
  withPage_asks layer .opens .closes fun page => (asks page).mono fun _ => .visits

theorem extractOnce_asks (schema : CompiledSchema Value) :
    (extractOnce layer url selector schema options).Asks (OfAttempt layer url options) := by
  rw [extractOnce_eq]
  refine Action.asks_bind (Action.asks_query (.apart rfl nofun)) fun started => ?_
  refine Action.asks_bind (withPage_attempts layer url options fun page =>
    extraction_asks layer page url selector options schema) fun records => ?_
  exact (announce_asks url selector schema started records).mono fun _ own => .apart own.1 own.2

theorem evaluateOnce_asks (source : String) :
    (evaluateOnce layer url source options).Asks (OfAttempt layer url options) :=
  withPage_attempts layer url options fun page => evaluation_asks layer page url options source

theorem captureOnce_asks (shot : ScreenshotOptions) :
    (captureOnce layer url shot options).Asks (OfAttempt layer url options) :=
  withPage_attempts layer url options fun page => capture_asks layer page url options shot

end Harvester

end WebHarvest
