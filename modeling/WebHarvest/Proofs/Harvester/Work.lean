import WebHarvest.Proofs.Browser.Translation
import WebHarvest.Proofs.Harvester.Units
import WebHarvest.Proofs.Retry.Tries

/-!
# Work on a target

What is wanted of a target is its records, the result of a function, or a picture. A call for one
target checks its arguments and then pursues one of them, and so does a job of a batch: it passes
the limiter once, and then it is attempted.
-/

set_option autoImplicit false

namespace WebHarvest.Harvester

open Browser (Layer PageId)

/-- What is wanted of a target. -/
inductive Goal where
  | records (selector : String) (schema : CompiledSchema Value)
  | result (source : String)
  | image (shot : ScreenshotOptions)

namespace Goal

def operation : Goal → String
  | records .. => "harvest"
  | result _ => "harvest_custom"
  | image _ => "screenshot"

def selector? : Goal → Option String
  | records selector _ => some selector
  | _ => none

/-- What is done on an open page. -/
def onPage (layer : Layer) (page : PageId) (url : String) (options : HarvestOptions) :
    Goal → Action Value
  | records selector schema => extraction layer page url selector options schema
  | result source => evaluation layer page url options source
  | image shot => capture layer page url options shot

def attempt (layer : Layer) (url : String) (options : HarvestOptions) : Goal → Action Value
  | records selector schema => extractOnce layer url selector schema options
  | result source => evaluateOnce layer url source options
  | image shot => captureOnce layer url shot options

theorem onPage_asks (goal : Goal) (layer : Layer) (page : PageId) (url : String)
    (options : HarvestOptions) :
    (goal.onPage layer page url options).Asks (Request.OnPage page) := by
  have visits : (goal.onPage layer page url options).Asks (OfVisit layer page url options) := by
    cases goal with
    | records selector schema => exact extraction_asks layer page url selector options schema
    | result source => exact evaluation_asks layer page url options source
    | image shot => exact capture_asks layer page url options shot
  exact visits.mono fun _ own => own.onPage

theorem attempt_asks (goal : Goal) (layer : Layer) (url : String) (options : HarvestOptions) :
    (goal.attempt layer url options).Asks (OfAttempt layer url options) := by
  cases goal with
  | records selector schema => exact extractOnce_asks layer url selector options schema
  | result source => exact evaluateOnce_asks layer url options source
  | image shot => exact captureOnce_asks layer url options shot

end Goal

/-- A unit of work: a target, and what is wanted of it. -/
structure Work where
  url : String
  options : HarvestOptions
  goal : Goal

namespace Work

variable (harvester : Harvester) (work : Work)

def attempt : Action Value := work.goal.attempt harvester.layer work.url work.options

def policy : RetryPolicy := work.options.retryPolicy harvester.config.retry

def context : Retry.Context :=
  [(.text "url", .text work.url), (.text "operation", .text work.goal.operation),
    (.text "selector", .ofText? work.goal.selector?)]

def action : Action Value :=
  harvester.guarded work.url work.goal.operation work.goal.selector? work.options
    (work.attempt harvester)

/-- A run of a unit of work: the limiter does not let it through, or it does, the clock is read, and
these are the attempts. -/
inductive Pursued : List (Retry.Try Value) → List Exchange → Except Failure Value → Prop where
  | refused {trace : List Exchange} {failure : Failure}
      (lost : (acquire work.url).Runs trace (.error failure)) :
      Pursued [] trace (.error failure)
  | admitted {before : List Exchange} {started : Int} {tries : List (Retry.Try Value)}
      {outcome : Except Failure Value} (passes : (acquire work.url).Runs before (.ok ()))
      (tried : Retry.Tried harvester.controller (work.attempt harvester) (work.policy harvester)
        work.context started 0 tries outcome) :
      Pursued tries (before ++ ⟨.now, started⟩ :: tries.flatMap Retry.Try.whole) outcome

variable {harvester work} {trace : List Exchange} {outcome : Except Failure Value}

theorem action_pursued (run : (work.action harvester).Runs trace outcome) :
    ∃ tries, work.Pursued harvester tries trace outcome := by
  unfold action guarded at run
  rcases Action.runs_bind.mp run with ⟨before, _, after, passes, executes, rfl⟩ | ⟨_, lost, rfl⟩
  · obtain ⟨started, tries, rfl, tried⟩ := Retry.execute_tried executes
    exact ⟨tries, .admitted passes tried⟩
  · exact ⟨[], .refused lost⟩

variable (harvester work) in
/-- What happens on a page of its own. -/
def Visits : List Exchange → Except Failure Value → Prop :=
  Browser.Visited harvester.layer fun page =>
    work.goal.onPage harvester.layer page work.url work.options

variable (harvester work) in
/-- A run of an attempt: a visit, and when records are wanted, a look at the clock before it and
their announcement after it. -/
inductive Attempted : List Exchange → Except Failure Value → Prop where
  | plain {trace : List Exchange} {outcome : Except Failure Value}
      (others : ∀ selector schema, work.goal ≠ .records selector schema)
      (visits : work.Visits harvester trace outcome) : Attempted trace outcome
  | failed {selector : String} {schema : CompiledSchema Value} {began : Int}
      {inside : List Exchange} {failure : Failure} (wants : work.goal = .records selector schema)
      (visits : work.Visits harvester inside (.error failure)) :
      Attempted (⟨.now, began⟩ :: inside) (.error failure)
  | announced {selector : String} {schema : CompiledSchema Value} {began : Int}
      {inside after : List Exchange} {records : Value} {outcome : Except Failure Value}
      (wants : work.goal = .records selector schema)
      (visits : work.Visits harvester inside (.ok records))
      (tells : (announce work.url selector schema began records).Runs after outcome) :
      Attempted (⟨.now, began⟩ :: (inside ++ after)) outcome

theorem attempt_attempted (run : (work.attempt harvester).Runs trace outcome) :
    work.Attempted harvester trace outcome := by
  obtain ⟨url, options, goal⟩ := work
  have visits {trace : List Exchange} {outcome : Except Failure Value}
      (run : (harvester.layer.withPage fun page =>
        goal.onPage harvester.layer page url options).Runs trace outcome) :
      Visits harvester ⟨url, options, goal⟩ trace outcome := Browser.withPage_visited run
  cases goal with
  | records selector schema =>
      change (extractOnce harvester.layer url selector schema options).Runs trace outcome at run
      rw [extractOnce_eq] at run
      rcases Action.runs_bind.mp run with ⟨_, began, _, looks, goesOn, rfl⟩ | ⟨_, lost, -⟩
      · obtain ⟨_, rfl, same⟩ := Action.runs_query.mp looks
        obtain rfl := Except.ok.inj same
        rcases Action.runs_bind.mp goesOn with
          ⟨inside, _, after, opened, tells, rfl⟩ | ⟨_, lost, rfl⟩
        · show Attempted _ _ (⟨.now, began⟩ :: (inside ++ after)) outcome
          exact .announced rfl (visits opened) tells
        · exact .failed rfl (visits lost)
      · obtain ⟨_, -, impossible⟩ := Action.runs_query.mp lost
        cases impossible
  | result source => exact .plain (by rintro _ _ ⟨⟩) (visits run)
  | image shot => exact .plain (by rintro _ _ ⟨⟩) (visits run)

theorem attempt_asks : (work.attempt harvester).Asks (·.isAttempt = true) :=
  (work.goal.attempt_asks harvester.layer work.url work.options).mono fun _ own => own.isAttempt

end Work

/-- A call for one target. -/
inductive Errand where
  | harvest (url selector : String) (extractor : Value) (options : HarvestOptions)
  | harvestCustom (url : String) (pageFunction : Value) (options : HarvestOptions)
  | screenshot (url : String) (options : HarvestOptions)

namespace Errand

def options : Errand → HarvestOptions
  | harvest _ _ _ options | harvestCustom _ _ options | screenshot _ options => options

def action (harvester : Harvester) : Errand → Action Value
  | harvest url selector extractor options => harvester.harvest url selector extractor options
  | harvestCustom url pageFunction options => harvester.harvestCustom url pageFunction options
  | screenshot url options => harvester.screenshot url options

/-- The unit of work that a call comes down to, when its arguments are in order. -/
def work : Errand → Except Failure Work
  | harvest url selector extractor options =>
      (Failure.ofSchema (Schema.compileExtractor extractor)).map fun schema =>
        ⟨url, options, .records selector schema⟩
  | harvestCustom url pageFunction options =>
      (pageSource pageFunction).map fun source => ⟨url, options, .result source⟩
  | screenshot url options => .ok ⟨url, options, .image (options.screenshot.getD {})⟩

theorem settle_map {α β γ : Type} (outcome : Except Failure α) (f : α → β)
    (next : β → Action γ) : Action.settle (outcome.map f) >>= next =
      Action.settle outcome >>= fun value => next (f value) := by
  cases outcome with
  | ok value => rfl
  | error failure => rfl

/-- A call whose arguments are not in order does nothing but fail. -/
theorem action_eq (harvester : Harvester) (errand : Errand) :
    errand.action harvester = Action.settle errand.work >>= fun work => work.action harvester := by
  cases errand with
  | harvest url selector extractor options =>
      let workOn (schema : CompiledSchema Value) : Work :=
        ⟨url, options, .records selector schema⟩
      exact (settle_map (Failure.ofSchema (Schema.compileExtractor extractor)) workOn
        (Work.action harvester)).symm
  | harvestCustom url pageFunction options =>
      let workOn (source : String) : Work := ⟨url, options, .result source⟩
      exact (settle_map (pageSource pageFunction) workOn (Work.action harvester)).symm
  | screenshot url options => rfl

/-- A call fails at once, or it is the run of a unit of work. -/
theorem action_runs {harvester : Harvester} {errand : Errand} {trace : List Exchange}
    {outcome : Except Failure Value} (run : (errand.action harvester).Runs trace outcome) :
    (∃ failure, errand.work = .error failure ∧ trace = [] ∧ outcome = .error failure) ∨
      ∃ work, errand.work = .ok work ∧ (work.action harvester).Runs trace outcome := by
  rw [action_eq] at run
  cases pursues : errand.work with
  | ok work =>
      rw [pursues] at run
      exact Or.inr ⟨work, rfl, run⟩
  | error failure =>
      rw [pursues] at run
      obtain ⟨rfl, rfl⟩ := Program.runs_done.mp run
      exact Or.inl ⟨failure, rfl, rfl, rfl⟩

end Errand

/-- The unit of work that a job comes down to, when its extractor compiles. -/
def workOf (job : BatchJob) : Except Failure Work :=
  (Failure.ofSchema (Schema.compileExtractor job.extractor)).map fun schema =>
    ⟨job.url, job.options, .records job.selector schema⟩

theorem work_of_job (harvester : Harvester) (progress : Bool) {job : BatchJob} {work : Work}
    (pursues : workOf job = .ok work) :
    Batch.work (harvester.batchSetup progress) harvester.jobOperation job =
      work.action harvester := by
  cases compiled : Schema.compileExtractor job.extractor with
  | ok schema =>
      unfold workOf at pursues
      rw [compiled] at pursues
      obtain rfl := Except.ok.inj pursues
      exact work_eq harvester compiled job.url job.selector job.options progress
  | error fault =>
      unfold workOf at pursues
      rw [compiled] at pursues
      cases pursues

end WebHarvest.Harvester
