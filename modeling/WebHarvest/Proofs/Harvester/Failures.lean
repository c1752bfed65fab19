import WebHarvest.Proofs.Harvester.Work

/-!
# Failures of the engine

What an attempt does on its page translates the failures of the engine; its page is opened and
closed unguarded. So the retry policy, the observer, the caller and the outcome of a job meet a
failure of the engine as it is just when a page could not be opened or closed, and the caller who
asks for cookies meets it always.
-/

set_option autoImplicit false

namespace WebHarvest

open Browser (Layer PageId Bare Sourced Sources Surfaces Translates sources_bind sources_emit
  sources_pure sources_query sources_settle sources_takeSlot translates_bind translates_guard
  translates_log translates_makeParents translates_pure)

namespace Browser

theorem navigationBlame_translates (url : String) (failure : Failure) :
    Failure.Translates failure (navigationBlame url failure) :=
  ⟨.navigation, _, _, _, _, rfl, Or.inl rfl⟩

theorem loadStateBlame_translates (url state : String) (failure : Failure) :
    Failure.Translates failure (loadStateBlame url state failure) :=
  ⟨.matchTimeout, _, _, _, _, rfl, Or.inr (Or.inl rfl)⟩

theorem matchBlame_translates (url selector state : String) (failure : Failure) :
    Failure.Translates failure (matchBlame url selector state failure) := by
  unfold matchBlame
  split
  · exact ⟨.matchTimeout, _, _, _, _, rfl, Or.inr (Or.inl rfl)⟩
  · exact ⟨.navigation, _, _, _, _, rfl, Or.inl rfl⟩

theorem extractionBlame_translates (what url operation : String) (selector : Option String)
    (failure : Failure) :
    Failure.Translates failure (extractionBlame what url operation selector failure) :=
  ⟨.extraction, _, _, _, _, rfl, Or.inr (Or.inr rfl)⟩

end Browser

namespace Harvester

section Bodies

variable (layer : Layer) (page : PageId) (url : String) (options : HarvestOptions)

theorem visit_translates : Translates (visit layer page url options) := by
  unfold visit
  dsimp only
  rw [Browser.navigate_eq]
  refine translates_bind ?_ fun _ => ?_
  · exact translates_bind (translates_log _) fun _ =>
      translates_bind (translates_guard rfl fun failure _ =>
        Browser.navigationBlame_translates url failure) fun _ => translates_pure ()
  · cases options.waitForLoadState with
    | none => exact translates_pure ()
    | some state =>
        dsimp only
        split
        · rw [Browser.waitForLoadState_eq]
          exact translates_bind (translates_guard rfl fun failure _ =>
            Browser.loadStateBlame_translates url state failure) fun _ => translates_pure ()
        · exact translates_pure ()

theorem captureImage_translates (shot : ScreenshotOptions) :
    Translates (Browser.captureImage page url shot) := by
  rw [Browser.captureImage_eq]
  refine translates_bind ?_ fun _ => translates_guard rfl fun failure _ =>
    Browser.extractionBlame_translates _ url _ _ failure
  cases shot.path with
  | none => exact translates_pure ()
  | some path => exact translates_makeParents path

theorem onPage_translates (goal : Goal) : Translates (goal.onPage layer page url options) := by
  cases goal with
  | records selector schema =>
      show Translates (extraction layer page url selector options schema)
      unfold extraction
      rw [Browser.waitForMatch_eq, Browser.extract_eq]
      refine translates_bind (visit_translates layer page url options) fun _ => ?_
      refine translates_bind (translates_bind (translates_guard rfl fun failure _ =>
        Browser.matchBlame_translates url selector _ failure) fun _ => translates_pure ()) ?_
      intro _
      refine translates_bind (translates_guard rfl fun failure _ =>
        Browser.extractionBlame_translates _ url _ _ failure) fun records => ?_
      cases options.screenshot with
      | none => exact translates_pure records
      | some shot =>
          exact translates_bind (captureImage_translates page url shot) fun _ =>
            translates_pure records
  | result source =>
      show Translates (evaluation layer page url options source)
      unfold evaluation
      rw [Browser.evaluate_eq]
      exact translates_bind (visit_translates layer page url options) fun _ =>
        translates_guard rfl fun failure _ =>
          Browser.extractionBlame_translates _ url _ _ failure
  | image shot =>
      exact translates_bind (visit_translates layer page url options) fun _ =>
        captureImage_translates page url shot

end Bodies

section Attempts

variable {harvester : Harvester} {trace : List Exchange} {outcome : Except Failure Value}

theorem isOwn_of_lengthOf {records : Value} {failure : Failure}
    (fails : lengthOf records = .error failure) : failure.IsOwn := by
  unfold lengthOf at fails
  split at fails
  all_goals cases fails
  exact ⟨rfl, rfl⟩

theorem announce_sources (url selector : String) (schema : CompiledSchema Value) (started : Int)
    (records : Value) : Sources (announce url selector schema started records) := by
  unfold announce
  refine sources_bind (sources_query _) fun duration => ?_
  refine sources_bind (sources_settle fun failure fails => isOwn_of_lengthOf fails) ?_
  intro count
  refine sources_bind (sources_query _) fun _ => ?_
  exact sources_bind (sources_emit _ _) fun _ => sources_pure records

theorem visits_surfaces {work : Work} (visits : work.Visits harvester trace outcome) :
    Surfaces trace outcome :=
  Browser.Visited.surfaces
    (fun page => onPage_translates harvester.layer page work.url work.options work.goal) visits

/-- What an attempt does apart from its visit calls the engine for nothing. -/
theorem attempt_surfaces {work : Work} (run : (work.attempt harvester).Runs trace outcome) :
    Surfaces trace outcome := by
  have looks (began : Int) : Surfaces [⟨.now, began⟩] (.ok began : Except Failure Int) := by
    refine .of_quiet (fun exchange member => ?_) (by rintro _ ⟨⟩)
    cases List.mem_singleton.mp member
    rintro _ ⟨⟩
  cases Work.attempt_attempted run with
  | plain _ visits => exact visits_surfaces visits
  | failed _ visits => exact (looks _).append (visits_surfaces visits)
  | @announced selector schema began _ after records _ _ visits tells =>
      refine (looks began).append ((visits_surfaces visits).append (.of_quiet ?_ ?_))
      · exact fun exchange member =>
          ((announce_asks work.url selector schema began records).request_mem tells exchange
            member).2
      · exact announce_sources work.url selector schema began records after outcome tells

end Attempts

theorem acquire_sources (target : String) : Sources (acquire target) := by
  unfold acquire
  induction RateLimit.scopesOf target with
  | nil => exact sources_pure ()
  | cons scope rest ih => exact sources_bind (sources_takeSlot scope target) fun _ => ih

end Harvester

namespace Retry

variable {trace : List Exchange} {controller : Controller} {policy : RetryPolicy}
variable {context : Context} {failure : Failure}

theorem Try.Followed.isRetry {α : Type} {started : Int} {attempt : Try α}
    (followed : attempt.Followed controller policy context started) :
    ∀ exchange ∈ attempt.sequel, exchange.request.isRetry = true := by
  obtain nothing | ⟨failure, number, reply, -, reports | pauses⟩ := followed
  · rw [nothing]
    exact fun _ member => absurd member List.not_mem_nil
  · exact (report_asks failure _ started).request_mem reports
  · exact (pause_asks failure number).request_mem pauses

theorem Announced.sourced {attempt : Nat} {reply : Except Failure Unit}
    (announced : Announced policy context failure attempt trace reply) : Sourced trace reply := by
  cases announced with
  | pauses record =>
      rintro fault rfl
      exact Or.inr ⟨_, List.mem_cons_of_mem _ (List.mem_cons_of_mem _ (List.mem_singleton_self _)),
        rfl, fun _ => by rintro _ ⟨⟩⟩
  | unheard record fault =>
      exact Sourced.raised (by rintro _ ⟨⟩)
        (List.mem_cons_of_mem _ (List.mem_singleton_self _)) rfl

/-- A report fails only when the signal or the observer does. -/
theorem Filed.sourced {attempts : Nat} {started : Int} {reply : Except Failure Unit}
    (filed : Filed controller context failure attempts started trace reply) :
    Sourced trace reply := by
  cases filed with
  | observed _ reported =>
      cases reported with
      | observed | suppressed => rintro _ ⟨⟩
      | interrupted duration record fault =>
          exact Sourced.raised (by rintro _ ⟨⟩) (List.mem_cons_of_mem _
            (List.mem_cons_of_mem _ (List.mem_cons_of_mem _ (List.mem_singleton_self _)))) rfl
      | unheard duration record fault =>
          exact Sourced.raised (by rintro _ ⟨⟩)
            (List.mem_cons_of_mem _ (List.mem_cons_of_mem _ (List.mem_singleton_self _))) rfl
  | unobserved _ duration record =>
      rintro fault rfl
      exact Or.inr ⟨_, List.mem_cons_of_mem _ (List.mem_cons_of_mem _ (List.mem_singleton_self _)),
        rfl, fun _ => by rintro _ ⟨⟩⟩

/-- The outcome is what the attempts have come to, or what the host has raised between them. -/
theorem Tried.sourced {α : Type} {operation : Action α} {started : Int} {number : Nat}
    {tries : List (Try α)} {outcome : Except Failure α} (signals : controller.signals = true)
    (surfaces : ∀ trace outcome, operation.Runs trace outcome → Surfaces trace outcome)
    (tried : Tried controller operation policy context started number tries outcome) :
    Sourced (tries.flatMap Try.whole) outcome := by
  have single (attempt : Try α) : [attempt].flatMap Try.whole = attempt.trace ++ attempt.sequel :=
    List.append_nil _
  induction tried with
  | succeeded => rintro _ ⟨⟩
  | interrupted ran =>
      rw [single]
      exact (surfaces _ _ ran).foreign.mono fun _ => List.mem_append_left _
  | @reported _ _ _ _ reply ran _ reports =>
      rw [single]
      cases reply with
      | ok => exact (surfaces _ _ ran).foreign.mono fun _ => List.mem_append_left _
      | error fault =>
          exact ((report_filed signals reports).sourced.mono fun _ =>
            List.mem_append_right _).of_error
  | stranded _ _ pauses =>
      rw [single]
      exact ((pause_announced signals pauses).sourced.mono fun _ =>
        List.mem_append_right _).of_error
  | retried _ _ _ _ _ ih =>
      rw [List.flatMap_cons]
      exact ih.mono fun _ => List.mem_append_right _

end Retry

/-- The exchange is a call to the engine. -/
def Exchange.isCall (exchange : Exchange) : Bool := exchange.request matches .browser _

namespace Harvester

/-- What a run shows of the engine's failures, given its attempts: each attempt comes out with them
as said, no other part of the run calls the engine, the observer is told of results of attempts
only, and a failure of the engine in which the run ends has not been raised by a guarded call. -/
structure Exposes (tries : List (Retry.Try Value)) (trace : List Exchange)
    (outcome : Except Failure Value) : Prop where
  attempts : ∀ attempt ∈ tries, Surfaces attempt.trace attempt.result
  calls : trace.filter Exchange.isCall =
    tries.flatMap fun attempt => attempt.trace.filter Exchange.isCall
  observed : ∀ failure ∈ trace.filterMap Exchange.observed?,
    ∃ attempt ∈ tries, attempt.result = .error failure
  leaves : Sourced trace outcome

section Runs

variable {harvester : Harvester} {trace : List Exchange} {outcome : Except Failure Value}

theorem observed_of_isSlot {exchange : Exchange} (own : exchange.request.isSlot = true) :
    exchange.observed? = none ∧ exchange.isCall = false := by
  obtain ⟨request, reply⟩ := exchange
  cases request with
  | takeSlot => exact ⟨rfl, rfl⟩
  | _ => cases own

theorem observed_of_isAttempt {exchange : Exchange} (own : exchange.request.isAttempt = true) :
    exchange.observed? = none := by
  obtain ⟨request, reply⟩ := exchange
  cases request with
  | observe => cases own
  | _ => rfl

theorem isCall_of_isRetry {exchange : Exchange} (own : exchange.request.isRetry = true) :
    exchange.isCall = false := by
  obtain ⟨request, reply⟩ := exchange
  cases request with
  | browser => cases own
  | _ => rfl

theorem sequel_calls {controller : Retry.Controller} {policy : RetryPolicy}
    {context : Retry.Context} {started : Int} {attempt : Retry.Try Value}
    (followed : attempt.Followed controller policy context started) :
    attempt.sequel.filter Exchange.isCall = [] :=
  List.filter_eq_nil_iff.mpr fun exchange member =>
    ne_true_of_eq_false (isCall_of_isRetry (followed.isRetry exchange member))

theorem sequel_observed {controller : Retry.Controller} (signals : controller.signals = true)
    {policy : RetryPolicy} {context : Retry.Context} {started : Int} {attempt : Retry.Try Value}
    (followed : attempt.Followed controller policy context started) :
    ∀ failure ∈ attempt.sequel.filterMap Exchange.observed?, attempt.result = .error failure := by
  obtain nothing | ⟨failure, number, reply, failed, reports | pauses⟩ := followed
  · rw [nothing]
    exact fun _ member => absurd member List.not_mem_nil
  · intro told member
    rw [(Retry.report_filed signals reports).tells told member, failed]
  · rw [(Retry.pause_announced signals pauses).tells]
    exact fun _ member => absurd member List.not_mem_nil

theorem Work.Pursued.exposes {work : Work} {tries : List (Retry.Try Value)}
    (pursued : work.Pursued harvester tries trace outcome) :
    Exposes tries trace outcome := by
  have slots (before : List Exchange) (reply : Except Failure Unit)
      (passes : (acquire work.url).Runs before reply) :
      before.filter Exchange.isCall = [] ∧ before.filterMap Exchange.observed? = [] := by
    have own := (acquire_asks work.url).request_mem passes
    exact ⟨List.filter_eq_nil_iff.mpr fun exchange member =>
        ne_true_of_eq_false (observed_of_isSlot (own exchange member)).2,
      List.filterMap_eq_nil_iff.mpr fun exchange member =>
        (observed_of_isSlot (own exchange member)).1⟩
  cases pursued with
  | @refused trace failure lost =>
      obtain ⟨noCall, unheard⟩ := slots trace _ lost
      refine ⟨fun _ member => absurd member List.not_mem_nil, noCall, ?_,
        (acquire_sources work.url trace _ lost).of_error⟩
      rw [unheard]
      exact fun _ member => absurd member List.not_mem_nil
  | @admitted before began tries outcome passes tried =>
      obtain ⟨noCall, unheard⟩ := slots before _ passes
      have surfaces (trace : List Exchange) (outcome : Except Failure Value)
          (run : (work.attempt harvester).Runs trace outcome) : Surfaces trace outcome :=
        attempt_surfaces run
      refine ⟨fun attempt member => surfaces _ _ (tried.member attempt member).1, ?_, ?_, ?_⟩
      · rw [List.filter_append, noCall, List.nil_append, List.filter_cons_of_neg Bool.false_ne_true,
          List.filter_flatMap]
        refine List.flatMap_congr fun attempt member => ?_
        rw [Retry.Try.whole, List.filter_append, sequel_calls (tried.member attempt member).2,
          List.append_nil]
      · intro failure told
        rw [List.filterMap_append, unheard, List.nil_append, List.filterMap_cons_none rfl,
          List.filterMap_flatMap] at told
        obtain ⟨attempt, member, told⟩ := List.mem_flatMap.mp told
        obtain ⟨ran, followed⟩ := tried.member attempt member
        rw [Retry.Try.whole, List.filterMap_append] at told
        rcases List.mem_append.mp told with inside | told
        · obtain ⟨exchange, among, tells⟩ := List.mem_filterMap.mp inside
          rw [observed_of_isAttempt (Work.attempt_asks.request_mem ran exchange among)] at tells
          cases tells
        · exact ⟨attempt, member, sequel_observed rfl followed failure told⟩
      · exact (Retry.Tried.sourced rfl surfaces tried).mono fun _ member =>
          List.mem_append_right _ (List.mem_cons_of_mem _ member)

theorem wrapUp_runs {job : BatchJob} {began : Int} {result : Except Failure Value}
    {ended : Except Failure BatchOutcome} (run : (Batch.wrapUp job began result).Runs trace ended) :
    (∃ failure, result = .error failure ∧ failure.isOrdinary = false ∧ ended = .error failure) ∨
      job.EndsWith result ended := by
  cases result with
  | ok data =>
      rcases Action.runs_bind.mp run with ⟨_, duration, _, -, ends, -⟩ | ⟨_, lost, -⟩
      · exact Or.inr ⟨_, (Action.runs_pure.mp ends).2, rfl⟩
      · obtain ⟨_, -, impossible⟩ := Action.runs_query.mp lost
        cases impossible
  | error failure =>
      unfold Batch.wrapUp at run
      cases ordinary : failure.isOrdinary with
      | false =>
          simp only [ordinary, Bool.not_false, if_true] at run
          exact Or.inl ⟨failure, rfl, ordinary, (Action.runs_throw.mp run).2⟩
      | true =>
          simp only [ordinary, Bool.not_true, Bool.false_eq_true, if_false] at run
          rcases Action.runs_bind.mp run with ⟨_, _, _, -, measures, -⟩ | ⟨_, lost, -⟩
          · rcases Action.runs_bind.mp measures with ⟨_, duration, _, -, ends, -⟩ | ⟨_, lost, -⟩
            · exact Or.inr ⟨_, (Action.runs_pure.mp ends).2, rfl⟩
            · obtain ⟨_, -, impossible⟩ := Action.runs_query.mp lost
              cases impossible
          · cases (Retry.log_runs.mp lost).2

/-- In a batch the work stands between a look at the clock and what makes an outcome of its
result. -/
theorem runJob_runs {setup : Batch.Setup} {operation : BatchJob → Action Value} {job : BatchJob}
    {ended : Except Failure BatchOutcome}
    (run : (Batch.runJob setup operation job).Runs trace ended) :
    ∃ began inside result after, trace = ⟨.now, began⟩ :: (inside ++ after) ∧
      (Batch.work setup operation job).Runs inside result ∧
      (Batch.wrapUp job began result).Runs after ended := by
  unfold Action.Runs at run
  rw [Batch.runJob_run] at run
  cases run with
  | ask began rest =>
      obtain ⟨inside, result, after, ran, wraps, rfl⟩ := Program.runs_bind.mp rest
      exact ⟨began, inside, result, after, rfl, ran, wraps⟩

/-- For every host and every run of a call for one target or of a job: each attempt has the
translation of what a guarded call raised for its result, unless its page could not be closed then;
what the opening or the closing of a page raises is the attempt's result as it is. The retry policy
and the observer judge the results of the attempts, and so do the caller and the outcome of a job in
the end: a failure of the engine that they meet has been raised by something else than a guarded
call. Reading cookies is no guarded call. -/
theorem engine_failures (harvester : Harvester) :
    (∀ (errand : Errand) work, errand.work = .ok work → ∀ trace outcome,
      (errand.action harvester).Runs trace outcome →
      ∃ tries, work.Pursued harvester tries trace outcome ∧ Exposes tries trace outcome) ∧
    (∀ job work, workOf job = .ok work → ∀ progress trace ended,
      (Batch.runJob (harvester.batchSetup progress) harvester.jobOperation job).Runs trace ended →
      ∃ began inside result after tries, trace = ⟨.now, began⟩ :: (inside ++ after) ∧
        work.Pursued harvester tries inside result ∧ Exposes tries inside result ∧
        (Batch.wrapUp job began result).Runs after ended ∧
        ((∃ failure, result = .error failure ∧ failure.isOrdinary = false ∧
          ended = .error failure) ∨ job.EndsWith result ended)) ∧
    ∀ urls trace outcome, (harvester.cookies urls).Runs trace outcome → Surfaces trace outcome := by
  refine ⟨fun errand work pursues trace outcome run => ?_,
    fun job work pursues progress trace ended run => ?_, fun urls trace outcome run => ?_⟩
  · obtain ⟨failure, refused, -⟩ | ⟨_, same, run⟩ := Errand.action_runs run
    · rw [pursues] at refused
      cases refused
    · obtain rfl := Except.ok.inj (pursues.symm.trans same)
      obtain ⟨tries, pursued⟩ := Work.action_pursued run
      exact ⟨tries, pursued, pursued.exposes⟩
  · obtain ⟨began, inside, result, after, rfl, ran, wraps⟩ := runJob_runs run
    rw [work_of_job harvester progress pursues] at ran
    obtain ⟨tries, pursued⟩ := Work.action_pursued ran
    exact ⟨began, inside, result, after, tries, rfl, pursued, pursued.exposes, wraps,
      wrapUp_runs wraps⟩
  · exact Browser.cookies_surfaces run

/-- The engine has crashed, so that no page opens, and the caller meets the failure as it is. -/
theorem engine_failures_crashed :
    let harvester : Harvester := { held := { context := some 0 } }
    let errand : Errand := .screenshot "" {}
    let work : Work := ⟨"", {}, .image {}⟩
    let crash : Failure := .raise .browser "closed"
    harvester.started = true ∧ errand.work = .ok work ∧ crash.isBrowser = true ∧
      ∃ trace tries, (errand.action harvester).Runs trace (.error crash) ∧
        ⟨.browser .newPage, .error crash⟩ ∈ trace ∧
        work.Pursued harvester tries trace (.error crash) ∧
        Exposes tries trace (.error crash) := by
  intro harvester errand work crash
  have run : ∃ record payload, (errand.action harvester).Runs
      [⟨.takeSlot .global "", .ok ()⟩, ⟨.now, (0 : Int)⟩, ⟨.browser .newPage, .error crash⟩,
        ⟨.elapsed 0, (0 : Int)⟩, ⟨.log record, ()⟩, ⟨.emit .operationFailed payload, .ok ()⟩]
      (.error crash) :=
    ⟨_, _, .ask _ (.ask _ (.ask _ (.ask _ (.ask _ (.ask _ (.done _))))))⟩
  obtain ⟨record, payload, run⟩ := run
  obtain ⟨tries, pursued, exposes⟩ := (engine_failures harvester).1 errand work rfl _ _ run
  exact ⟨rfl, rfl, rfl, _, tries, run,
    List.mem_cons_of_mem _ (List.mem_cons_of_mem _ (List.mem_cons_self ..)), pursued, exposes⟩

end Runs

end Harvester

end WebHarvest
