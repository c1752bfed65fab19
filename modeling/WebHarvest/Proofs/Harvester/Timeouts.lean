import WebHarvest.Proofs.Config.Timeouts
import WebHarvest.Proofs.Harvester.Accounts

/-!
# Timeouts of calls and jobs

Whatever is attempted, and however often, every timeout that is passed on to the engine is the most
specific one that is set, and positive, but for one of them: the timeout that options set for the
selector they wait for may be any integer. A negative one is passed on as it is, and zero counts as
if it were not set.
-/

set_option autoImplicit false

namespace WebHarvest

open Browser (Layer PageId)

/-- The most specific of the timeouts that are set: that of the wait itself, if it has one, that of
the options, and the configured one. -/
def HarvestOptions.timeoutFor (options : HarvestOptions) (config : HarvesterConfig)
    (own : Option Int) : Int :=
  own.getD (options.timeoutMs.getD config.timeoutMs : Nat)

namespace Browser.Call

/-- The timeout that a call passes on, with the one that the options set for this very call. -/
def timeout? (options : HarvestOptions) : Call → Option (Option Int × Int)
  | goto _ _ _ timeout => some (none, timeout)
  | waitForLoadState _ _ timeout => some (none, timeout)
  | waitForSelector _ _ _ timeout => some (options.waitForSelector.timeoutMs, timeout)
  | _ => none

/-- The timeout that a call passes on, if it has one, is the most specific of those that are set and
not zero; so it is as specified, and positive, unless the call has one of its own that is not. -/
def Timed (config : HarvesterConfig) (options : HarvestOptions) (call : Call) : Prop :=
  ∀ own timeout, call.timeout? options = some (own, timeout) →
    timeout = options.timeoutFor config (if own = some 0 then none else own) ∧
    (0 < timeout ∧ timeout = options.timeoutFor config own ↔ ∀ ms, own = some ms → 0 < ms)

end Browser.Call

/-- The request makes no call, or one whose timeout is made of the options. -/
def Request.Timed (config : HarvesterConfig) (options : HarvestOptions) (request : Request) :
    Prop :=
  ∀ call, request = .browser call → call.Timed config options

theorem Request.timed_of_isApart {config : HarvesterConfig} {options : HarvestOptions}
    {request : Request} (apart : request.IsApart) : request.Timed config options :=
  fun call same => absurd same (apart call)

namespace Batch

/-- What a job asks for is what its work asks for, and what stands around it. -/
theorem settle_asks {allowed : Request → Prop} {setup : Setup} {operation : BatchJob → Action Value}
    {job : BatchJob} (aside : ∀ request, request.isAside = true → allowed request)
    (works : (work setup operation job).Asks allowed) (count total : Nat) :
    (settle setup count total operation job).Asks allowed := by
  unfold Action.Asks
  rw [settle_run]
  refine .ask (aside .now rfl) fun started => works.bind fun result => ?_
  have wraps : (wrapUp job started result).Asks allowed := (wrapUp_asks job started result).mono aside
  exact wraps.bind fun ended => (settled_asks count total ended).mono aside

variable {σ : Type} {host : Host σ} {wakeups : Nat} {setup : Setup} {jobs : List BatchJob}
variable {operation : BatchJob → Action Value} {allowed : Request → Prop}

theorem chunkExchanges_of_asks {count total : Nat} {groups : List (List BatchJob)}
    (asks : ∀ chunk ∈ groups, ∀ job ∈ chunk,
      (settle setup count total operation job).Asks allowed) (moment : Moment σ) :
    ∀ exchange ∈ chunkExchanges host wakeups setup count total operation groups moment,
      allowed exchange.request := by
  induction groups generalizing moment with
  | nil => exact fun _ member => absurd member List.not_mem_nil
  | cons chunk groups ih =>
      rw [List.forall_mem_cons] at asks
      rw [chunkExchanges, List.forall_mem_append]
      refine ⟨Moment.exchanges_of_asks fun program member => ?_, ih asks.2 _⟩
      obtain ⟨job, among, rfl⟩ := List.mem_map.mp member
      exact asks.1 job among

/-- What is heard of a batch is what its jobs ask for, and what stands around them. -/
theorem exchanges_of_asks {concurrency : Nat} (positive : 1 ≤ concurrency)
    (aside : ∀ request, request.isAside = true → allowed request)
    (works : ∀ job ∈ jobs, (work setup operation job).Asks allowed) (moment : Moment σ) :
    ∀ exchange ∈ exchanges host wakeups setup jobs concurrency operation moment,
      allowed exchange.request := by
  rw [exchanges, List.forall_mem_append]
  refine ⟨Moment.exchanges_of_asks (List.forall_mem_singleton.mpr
    ((opening_asks jobs.length concurrency).mono aside)), ?_⟩
  cases (moment.perform host wakeups (opening jobs.length concurrency)).2 with
  | error failure => exact fun _ member => absurd member List.not_mem_nil
  | ok count =>
      dsimp only
      rw [List.forall_mem_append]
      constructor
      · refine chunkExchanges_of_asks (fun chunk isChunk job among => ?_) _
        have inside : job ∈ (chunks concurrency jobs).flatten :=
          List.mem_flatten.mpr ⟨chunk, isChunk, among⟩
        rw [chunks_flatten positive] at inside
        exact settle_asks aside (works job inside) _ _
      · split
        · exact fun _ member => absurd member List.not_mem_nil
        · exact Moment.exchanges_of_asks (List.forall_mem_singleton.mpr
            ((closing_asks _).mono aside))

end Batch

namespace Harvester

section Layers

variable {layer : Layer} {options : HarvestOptions}
variable (positive : 0 < layer.config.timeoutMs)
variable (general : ∀ ms, options.timeoutMs = some ms → 0 < ms)

include general

theorem timeout_general :
    layer.timeout (options.timeoutMs.map Int.ofNat) = options.timeoutFor layer.config none := by
  cases given : options.timeoutMs with
  | none => simp [Layer.timeout, HarvestOptions.timeoutFor, given]
  | some ms =>
      have some : ms ≠ 0 := Nat.pos_iff_ne_zero.mp (general ms given)
      simp [Layer.timeout, HarvestOptions.timeoutFor, given, some]

theorem timeout_waiting : layer.timeout (waitTimeout options) =
    options.timeoutFor layer.config
      (if options.waitForSelector.timeoutMs = some 0 then none
        else options.waitForSelector.timeoutMs) := by
  have fallsBack : layer.timeout (options.timeoutMs.map Int.ofNat) =
      options.timeoutFor layer.config none := timeout_general general
  unfold waitTimeout
  cases options.waitForSelector.timeoutMs with
  | none => exact fallsBack
  | some ms =>
      by_cases zero : ms = 0
      · simpa [zero] using fallsBack
      · simp [zero, Layer.timeout, HarvestOptions.timeoutFor]

include positive

/-- A timeout that falls back where it is set to zero is as specified, and positive, exactly when it
is not set to anything else than a positive one. -/
theorem timeoutFor_spec (own : Option Int) :
    let timeout := options.timeoutFor layer.config (if own = some 0 then none else own)
    (0 < timeout ∧ timeout = options.timeoutFor layer.config own) ↔
      ∀ ms, own = some ms → 0 < ms := by
  have fallsBack : 0 < options.timeoutFor layer.config none := by
    cases given : options.timeoutMs with
    | none => simpa [HarvestOptions.timeoutFor, given] using positive
    | some ms => simpa [HarvestOptions.timeoutFor, given] using general ms given
  cases own with
  | none => simpa using fallsBack
  | some ms =>
      by_cases zero : ms = 0
      · subst zero
        have differs : options.timeoutFor layer.config none ≠ 0 := ne_of_gt fallsBack
        simpa [HarvestOptions.timeoutFor] using fun _ => differs
      · simp [zero, HarvestOptions.timeoutFor]

theorem OfVisit.timed {page : PageId} {url : String} {request : Request}
    (own : OfVisit layer page url options request) : request.Timed layer.config options := by
  have spec := timeoutFor_spec positive general
  rintro call rfl set timeout passes
  cases own with
  | goes | loads =>
      cases passes
      rw [timeout_general general]
      exact ⟨rfl, spec none⟩
  | waits selector =>
      cases passes
      rw [timeout_waiting general]
      exact ⟨rfl, spec _⟩
  | extracts | evaluates | captures => cases passes

theorem OfAttempt.timed {url : String} {request : Request}
    (own : OfAttempt layer url options request) : request.Timed layer.config options := by
  cases own with
  | visits own => exact own.timed positive general
  | opens | closes =>
      rintro call ⟨⟩ own timeout passes
      cases passes
  | apart _ apart => exact Request.timed_of_isApart apart

end Layers

section Units

variable {harvester : Harvester} {options : HarvestOptions}
variable (positive : 0 < harvester.config.timeoutMs)

include positive

theorem guarded_timed (validated : options.Validated) {attempt : Action Value} {url : String}
    (attempts : attempt.Asks (OfAttempt harvester.layer url options)) (operation : String)
    (selector : Option String) :
    (harvester.guarded url operation selector options attempt).Asks
      (Request.Timed harvester.config options) :=
  harvester.guarded_asks
    (fun request own => Request.timed_of_isApart (request.isApart_of_isSlot own))
    (fun request own => Request.timed_of_isApart (request.isApart_of_isRetry own))
    (attempts.mono fun _ own => own.timed positive fun _ => validated.timeout_positive)
    url operation selector options

theorem Errand.action_timed {errand : Errand} (validated : errand.options.Validated) :
    (errand.action harvester).Asks (Request.Timed harvester.config errand.options) := by
  cases errand with
  | harvest url selector extractor options =>
      exact Action.asks_bind (Action.asks_settle _) fun schema =>
        guarded_timed positive validated (extractOnce_asks _ url selector options schema) _ _
  | harvestCustom url pageFunction options =>
      exact Action.asks_bind (Action.asks_settle _) fun source =>
        guarded_timed positive validated (evaluateOnce_asks _ url options source) _ _
  | screenshot url options =>
      exact guarded_timed positive validated (captureOnce_asks _ url options _) _ _

theorem work_timed {job : BatchJob} (validated : job.options.Validated) (progress : Bool) :
    (Batch.work (harvester.batchSetup progress) harvester.jobOperation job).Asks
      (Request.Timed harvester.config job.options) := by
  have operation : (harvester.jobOperation job).Asks
      (OfAttempt harvester.layer job.url job.options) :=
    Action.asks_bind (Action.asks_settle _) fun schema =>
      extractOnce_asks _ job.url job.selector job.options schema
  exact guarded_timed positive validated operation "harvest" (some job.selector)

end Units

/-- The options of the calls, or of the jobs, of a step. -/
def Step.options : Step → List HarvestOptions
  | calls errands => errands.map Errand.options
  | batch jobs concurrency _ =>
      match batchArguments jobs concurrency with
      | .ok (jobs, _) => jobs.map (·.options)
      | .error _ => []

theorem Step.exchanges_timed {harvester : Harvester} (positive : 0 < harvester.config.timeoutMs)
    {step : Step} (validated : ∀ options ∈ step.options, options.Validated) {σ : Type}
    (host : Host σ) (wakeups : Nat) (moment : Moment σ) :
    ∀ exchange ∈ step.exchanges host wakeups harvester moment, ∀ call,
      exchange.request = .browser call →
        ∃ options ∈ step.options, call.Timed harvester.config options := by
  let allowed (request : Request) : Prop := ∀ call, request = .browser call →
    ∃ options ∈ step.options, call.Timed harvester.config options
  have among {options : HarvestOptions} (member : options ∈ step.options) (request : Request)
      (timed : request.Timed harvester.config options) : allowed request :=
    fun call same => ⟨options, member, timed call same⟩
  show ∀ exchange ∈ step.exchanges host wakeups harvester moment, allowed exchange.request
  cases step with
  | calls errands =>
      refine Moment.exchanges_of_asks fun program member => ?_
      obtain ⟨errand, isErrand, rfl⟩ := List.mem_map.mp member
      have isOption : errand.options ∈ (calls errands).options := List.mem_map_of_mem isErrand
      exact (errand.action_timed positive (validated _ isOption)).mono (among isOption)
  | batch jobs concurrency progress =>
      cases accepted : batchArguments jobs concurrency with
      | error failure =>
          simp only [Step.exchanges, accepted]
          exact fun _ member => absurd member List.not_mem_nil
      | ok checked =>
          simp only [Step.exchanges, accepted]
          refine Batch.exchanges_of_asks (compiled_of_batchArguments accepted).1
            (fun request own call same => absurd same (request.isApart_of_isAside own call))
            (fun job isJob => ?_) moment
          have isOption : job.options ∈ (batch jobs concurrency progress).options := by
            rw [Step.options, accepted]
            exact List.mem_map_of_mem isJob
          exact (work_timed positive (validated _ isOption) progress).mono (among isOption)

/-- With a configuration that was accepted, calls and jobs whose options were accepted pass on
timeouts that are made of these alone, on every attempt and whatever they are answered; and so does
every step of a session, on whatever host. -/
theorem timeouts_specified {environment : Environment} {value : Value} {harvester : Harvester}
    (configured : HarvesterConfig.check environment value = .accepted harvester.config) :
    (∀ errand : Errand, errand.options.Validated →
      (errand.action harvester).Asks (Request.Timed harvester.config errand.options)) ∧
    (∀ (job : BatchJob) (progress : Bool) (count total : Nat), job.options.Validated →
      (Batch.settle (harvester.batchSetup progress) count total harvester.jobOperation job).Asks
        (Request.Timed harvester.config job.options)) ∧
    ∀ (σ : Type) (host : Host σ) (wakeups : Nat) (step : Step) (moment : Moment σ),
      (∀ options ∈ step.options, options.Validated) →
      ∀ exchange ∈ step.exchanges host wakeups harvester moment, ∀ call,
        exchange.request = .browser call →
          ∃ options ∈ step.options, call.Timed harvester.config options := by
  have positive := HarvesterConfig.timeout_positive configured
  refine ⟨fun errand validated => errand.action_timed positive validated, ?_, ?_⟩
  · intro job progress count total validated
    exact Batch.settle_asks
      (fun request own => Request.timed_of_isApart (request.isApart_of_isAside own))
      (work_timed positive validated progress) count total
  · intro σ host wakeups step moment validated
    exact Step.exchanges_timed positive validated host wakeups moment

/-- The default configuration, and options that pass their check although they set a negative
timeout for the wait: the wait of a call or a job is not as specified. -/
theorem timeouts_specified_negative :
    let options : HarvestOptions := { waitForSelector := { timeoutMs := some (-5) } }
    let errand : Errand := .harvest "http://a/" "li" .null options
    options.Validated ∧
      ¬ (0 : Int) < options.timeoutFor {} options.waitForSelector.timeoutMs ∧
      ∃ config, HarvesterConfig.check [] (.map []) = .accepted config ∧
        let harvester : Harvester := { config, held := { context := some 3 } }
        (errand.action harvester).Asks (Request.Timed config options) := by
  intro options errand
  have validated : options.Validated :=
    ⟨[(.text "wait_for_selector", .map [(.text "timeout_ms", .int (-5))])], rfl⟩
  refine ⟨validated, by decide, ?_⟩
  have passes : ((HarvesterConfig.check [] (.map [])).validated "").isOk = true := by
    decide +kernel
  cases configured : HarvesterConfig.check [] (.map []) with
  | accepted config =>
      have timed := timeouts_specified
        (show HarvesterConfig.check [] (.map []) =
          .accepted (⟨config, { context := some 3 }⟩ : Harvester).config from configured)
      exact ⟨config, rfl, timed.1 errand validated⟩
  | rejected issues =>
      rw [configured] at passes
      cases passes
  | broken failure =>
      rw [configured] at passes
      cases passes

end Harvester

end WebHarvest
