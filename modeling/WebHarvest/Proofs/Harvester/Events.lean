import WebHarvest.Proofs.Harvester.Failures

/-!
# What counts

Some exchanges count: what is announced, what the observer is told, pages that are asked for, and
work that is stranded because the limiter or a pause between attempts fails. As long as the host
fails in ordinary ways and the ledger takes every signal, the events of a unit of work are settled
by its attempts and its outcome.
-/

set_option autoImplicit false

namespace WebHarvest

open Retry (entry)

/-- What an exchange counts as. -/
inductive Event where
  /-- Records have been announced: how many there are, and the mode in which they were compiled. -/
  | completed (url selector records mode : Value)
  /-- Another attempt has been announced. -/
  | retried
  /-- A failure has been announced. -/
  | reported
  /-- The observer has been told of a failure. -/
  | observed
  /-- The limiter or a pause between attempts has failed. -/
  | stranded
  /-- A page has been asked for. -/
  | opens

def Exchange.event? : Exchange → Option Event
  | ⟨.emit .extractionComplete payload, _⟩ =>
      some (.completed (entry payload "url") (entry payload "selector") (entry payload "records")
        (entry payload "mode"))
  | ⟨.emit .retryAttempt _, _⟩ => some .retried
  | ⟨.emit .operationFailed _, _⟩ => some .reported
  | ⟨.observe .., _⟩ => some .observed
  | ⟨.takeSlot .., .error _⟩ => some .stranded
  | ⟨.pause _, .error _⟩ => some .stranded
  | ⟨.browser .newPage, _⟩ => some .opens
  | _ => none

def events (trace : List Exchange) : List Event := trace.filterMap Exchange.event?

namespace Event

def completed? : Event → Option (Value × Value × Value × Value)
  | completed url selector records mode => some (url, selector, records, mode)
  | _ => none

def isRetried (event : Event) : Bool := event matches retried
def isReported (event : Event) : Bool := event matches reported
def isObserved (event : Event) : Bool := event matches observed
def isStranded (event : Event) : Bool := event matches stranded
def isOpening (event : Event) : Bool := event matches opens

end Event

/-- The host has failed in an ordinary way, if at all, and a signal has been added to the ledger. -/
structure Exchange.IsMild (exchange : Exchange) : Prop where
  ordinary : ∀ failure, exchange.failure? = some failure → failure.isOrdinary = true
  writes : ∀ kind payload reply, exchange = ⟨.emit kind payload, reply⟩ → reply = .ok ()

/-- What there is to check of an exchange for it to be mild. -/
def Exchange.passes (exchange : Exchange) : Bool :=
  exchange.failure?.all fun failure =>
    failure.isOrdinary && !(exchange.request matches .emit ..)

theorem Exchange.isMild_iff {exchange : Exchange} : exchange.IsMild ↔ exchange.passes = true := by
  obtain ⟨request, reply⟩ := exchange
  constructor
  · intro mild
    unfold passes
    cases failed : failure? ⟨request, reply⟩ with
    | none => rfl
    | some failure =>
        rw [Option.all_some, mild.ordinary failure failed, Bool.true_and]
        cases request with
        | emit kind payload =>
            obtain rfl := mild.writes kind payload reply rfl
            cases failed
        | _ => rfl
  · intro passes
    refine ⟨fun failure failed => ?_, ?_⟩
    · rw [Exchange.passes, failed, Option.all_some, Bool.and_eq_true] at passes
      exact passes.1
    · rintro kind payload reply ⟨⟩
      cases reply with
      | ok => rfl
      | error failure =>
          rw [Exchange.passes, show failure? ⟨.emit kind payload, .error failure⟩ = some failure
            from rfl, Option.all_some, Bool.and_eq_true] at passes
          cases passes.2

instance (exchange : Exchange) : Decidable exchange.IsMild :=
  decidable_of_iff (exchange.passes = true) Exchange.isMild_iff.symm

section Traces

variable {trace more : List Exchange}

@[simp] theorem events_append : events (trace ++ more) = events trace ++ events more :=
  List.filterMap_append

theorem events_eq_nil (silent : ∀ exchange ∈ trace, exchange.event? = none) : events trace = [] :=
  List.filterMap_eq_nil_iff.mpr silent

theorem Request.OnPage.event? {page : Browser.PageId} {exchange : Exchange}
    (own : exchange.request.OnPage page) : exchange.event? = none := by
  obtain ⟨request, reply⟩ := exchange
  cases request with
  | log | makeParents => rfl
  | browser call =>
      cases call with
      | newPage => cases own.1
      | _ => rfl
  | _ => cases own

theorem Browser.Sourced.ordinary {α : Type} {outcome : Except Failure α}
    (sourced : Browser.Sourced trace outcome) (mild : ∀ exchange ∈ trace, exchange.IsMild) :
    ∀ failure, outcome = .error failure → failure.isOrdinary = true := by
  intro failure fails
  obtain own | ⟨exchange, member, raised, -⟩ := sourced failure fails
  · exact own.2
  · exact (mild exchange member).ordinary failure raised

end Traces

namespace Harvester

open Browser (Layer PageId)

section Attempts

variable {harvester : Harvester} {work : Work} {trace : List Exchange}
variable {outcome : Except Failure Value}

/-- What is announced when the records of a target are there. -/
def completion (url selector : String) (schema : CompiledSchema Value) (count : Nat) : Event :=
  .completed (.text url) (.text selector) (.ofNat count) (.text schema.mode.name)

/-- What is announced when the work on a target has come to something. -/
def Work.completion? (work : Work) (value : Value) : Option Event :=
  match work.goal with
  | .records selector schema =>
      (lengthOf value).toOption.map (completion work.url selector schema)
  | _ => none

def announcement (url selector : String) (schema : CompiledSchema Value) (count : Nat)
    (duration : Int) : List (Value × Value) :=
  [(.text "url", .text url), (.text "selector", .text selector), (.text "records", .ofNat count),
    (.text "mode", .text schema.mode.name), (.text "duration_ms", .int duration)]

theorem announce_runs {url selector : String} {schema : CompiledSchema Value} {began : Int}
    {records : Value} (run : (announce url selector schema began records).Runs trace outcome) :
    (∃ failure, outcome = .error failure ∧ lengthOf records = .error failure ∧ events trace = []) ∨
      ∃ count duration reply, lengthOf records = .ok count ∧
        ⟨.emit .extractionComplete (announcement url selector schema count duration), reply⟩ ∈
          trace ∧
        outcome = reply.map (fun _ => records) ∧
        events trace = [completion url selector schema count] := by
  unfold announce at run
  rcases Action.runs_bind.mp run with ⟨_, duration, _, measured, counts, rfl⟩ | ⟨_, lost, -⟩
  · obtain ⟨_, rfl, same⟩ := Action.runs_query.mp measured
    cases same
    rcases Action.runs_bind.mp counts with ⟨_, count, _, counted, logs, rfl⟩ | ⟨_, lost, rfl⟩
    · obtain ⟨rfl, found⟩ := Program.runs_done.mp counted
      rcases Action.runs_bind.mp logs with ⟨_, _, _, logged, emits, rfl⟩ | ⟨_, lost, -⟩
      · obtain ⟨rfl, -⟩ := Retry.log_runs.mp logged
        rcases Action.runs_bind.mp emits with ⟨_, _, _, emitted, ends, rfl⟩ | ⟨fault, lost, rfl⟩
        · obtain rfl := Action.runs_emit.mp emitted
          obtain ⟨rfl, rfl⟩ := Action.runs_pure.mp ends
          refine Or.inr ⟨count, duration, .ok (), found.symm, ?_, rfl, rfl⟩
          exact List.mem_cons_of_mem _ (List.mem_cons_of_mem _ List.mem_cons_self)
        · obtain rfl := Action.runs_emit.mp lost
          refine Or.inr ⟨count, duration, .error fault, found.symm, ?_, rfl, rfl⟩
          exact List.mem_cons_of_mem _ (List.mem_cons_of_mem _ List.mem_cons_self)
      · cases (Retry.log_runs.mp lost).2
    · obtain ⟨rfl, fails⟩ := Program.runs_done.mp lost
      exact Or.inl ⟨_, rfl, fails.symm, rfl⟩
  · obtain ⟨_, -, impossible⟩ := Action.runs_query.mp lost
    cases impossible

def Goal.isRecords : Goal → Bool
  | records .. => true
  | _ => false

/-- What is announced of a result. -/
def Work.completions (work : Work) : Except Failure Value → List Event
  | .ok value => (work.completion? value).toList
  | .error _ => []

/-- The page that an attempt asks for. -/
def openings (harvester : Harvester) : List Event :=
  if harvester.started then [.opens] else []

theorem visited_events {layer : Layer} {body : PageId → Action Value}
    (asks : ∀ page, (body page).Asks (Request.OnPage page))
    (visited : Browser.Visited layer body trace outcome) :
    events trace = if layer.started then [.opens] else [] := by
  cases visited with
  | unstarted stopped => rw [stopped]; rfl
  | unopened started => rw [started]; rfl
  | @opened started value inside result ran closed =>
      have silent : events inside = [] := events_eq_nil fun exchange member =>
        ((asks _).request_mem ran exchange member).event?
      show events ([_] ++ (inside ++ [_])) = _
      rw [events_append, events_append, silent, started]
      rfl

theorem visits_events (visits : work.Visits harvester trace outcome) :
    events trace = openings harvester :=
  visited_events
    (fun page => work.goal.onPage_asks harvester.layer page work.url work.options) visits

/-- An attempt asks for one page on a started browser, and announces the records that it has come
to, which can be counted. -/
theorem attempt_events (run : (work.attempt harvester).Runs trace outcome)
    (mild : ∀ exchange ∈ trace, exchange.IsMild) :
    events trace = openings harvester ++ work.completions outcome ∧
      ∀ value, outcome = .ok value → (work.completion? value).isSome = work.goal.isRecords := by
  cases Work.attempt_attempted run with
  | plain others visits =>
      have silent (value : Value) :
          work.completion? value = none ∧ work.goal.isRecords = false := by
        unfold Work.completion?
        cases wanted : work.goal with
        | records selector schema => exact absurd wanted (others selector schema)
        | result | image => exact ⟨rfl, rfl⟩
      have nothing : work.completions outcome = [] := by
        cases outcome with
        | ok value => rw [Work.completions, (silent value).1, Option.toList_none]
        | error => rfl
      rw [visits_events visits, nothing, List.append_nil]
      exact ⟨rfl, fun value _ => by rw [(silent value).1, (silent value).2, Option.isSome_none]⟩
  | @failed _ _ began inside _ _ visits =>
      show events ([⟨.now, began⟩] ++ inside) = _ ∧ _
      rw [events_append, visits_events visits]
      exact ⟨(List.append_nil _).symm, by rintro _ ⟨⟩⟩
  | @announced selector schema began inside after records _ wants visits tells =>
      show events ([⟨.now, began⟩] ++ (inside ++ after)) = _ ∧ _
      rw [events_append, events_append, visits_events visits]
      obtain ⟨failure, rfl, -, silent⟩ | ⟨count, duration, reply, counted, member, rfl, told⟩ :=
        announce_runs tells
      · rw [silent]
        exact ⟨rfl, by rintro _ ⟨⟩⟩
      · obtain rfl : reply = .ok () := (mild _ (List.mem_cons_of_mem _
          (List.mem_append_right _ member))).writes _ _ _ rfl
        have announced : work.completion? records =
            some (completion work.url selector schema count) := by
          simp only [Work.completion?, wants, counted, Except.toOption, Option.map_some]
        rw [told]
        simp only [Work.completions, Except.map, announced, Option.toList_some]
        refine ⟨rfl, fun value same => ?_⟩
        obtain rfl := Except.ok.inj same
        rw [announced, wants]
        rfl

end Attempts

end Harvester

namespace Retry

variable {controller : Controller} {policy : RetryPolicy} {context : Context} {failure : Failure}
variable {trace : List Exchange} {reply : Except Failure Unit}

theorem Announced.events {attempt : Nat}
    (announced : Announced policy context failure attempt trace reply)
    (mild : ∀ exchange ∈ trace, exchange.IsMild) :
    WebHarvest.events trace =
      .retried :: (if reply.isOk then [] else [.stranded]) := by
  cases announced with
  | pauses record =>
      cases reply with
      | ok | error => rfl
  | unheard record fault =>
      have writes := (mild _ (List.mem_cons_of_mem _ (List.mem_singleton_self _))).writes _ _ _ rfl
      cases writes

theorem Filed.events {attempts : Nat} {started : Int}
    (filed : Filed controller context failure attempts started trace reply)
    (mild : ∀ exchange ∈ trace, exchange.IsMild) :
    reply = .ok () ∧
      WebHarvest.events trace = .reported :: (if controller.observer then [.observed] else []) := by
  cases filed with
  | observed observes reported =>
      rw [observes]
      cases reported with
      | observed | suppressed => exact ⟨rfl, rfl⟩
      | interrupted duration record fault interrupts =>
          have ordinary := (mild _ (List.mem_cons_of_mem _ (List.mem_cons_of_mem _
            (List.mem_cons_of_mem _ (List.mem_singleton_self _))))).ordinary fault rfl
          rw [interrupts] at ordinary
          cases ordinary
      | unheard duration record fault =>
          have writes := (mild _ (List.mem_cons_of_mem _ (List.mem_cons_of_mem _
            (List.mem_singleton_self _)))).writes _ _ _ rfl
          cases writes
  | unobserved alone duration record =>
      rw [alone]
      exact ⟨(mild _ (List.mem_cons_of_mem _ (List.mem_cons_of_mem _
        (List.mem_singleton_self _)))).writes _ _ _ rfl, rfl⟩

end Retry

theorem acquire_events {target : String} {trace : List Exchange} {reply : Except Failure Unit}
    (run : (acquire target).Runs trace reply) :
    events trace = if reply.isOk then [] else [.stranded] := by
  unfold acquire at run
  generalize RateLimit.scopesOf target = scopes at run
  induction scopes generalizing trace with
  | nil =>
      obtain ⟨rfl, rfl⟩ := Action.runs_pure.mp run
      rfl
  | cons scope rest ih =>
      rcases Action.runs_bind.mp run with ⟨_, _, _, passes, others, rfl⟩ | ⟨failure, lost, rfl⟩
      · obtain rfl := Program.runs_request.mp passes
        rw [events_append, ih others]
        rfl
      · obtain rfl := Program.runs_request.mp lost
        rfl

namespace Harvester

/-- What the events of a unit of work come to, given the number of its attempts and its outcome. -/
structure Account (harvester : Harvester) (work : Work) (attempts : Nat)
    (outcome : Except Failure Value) (log : List Event) : Prop where
  retried : log.countP (·.isRetried) + 1 = attempts + log.countP (·.isStranded)
  failed : log.countP (·.isReported) + log.countP (·.isStranded) =
    if outcome.isOk then 0 else 1
  observed : log.countP (·.isObserved) =
    if harvester.config.onError then log.countP (·.isReported) else 0
  opened : log.countP (·.isOpening) = if harvester.started then attempts else 0
  completed : log.filterMap (·.completed?) = (work.completions outcome).filterMap (·.completed?)
  counted : ∀ value, outcome = .ok value → (work.completion? value).isSome = work.goal.isRecords

section Accounts

variable {harvester : Harvester} {work : Work} {outcome : Except Failure Value}

theorem openings_countP (p : Event → Bool) :
    (openings harvester).countP p = if harvester.started && p .opens then 1 else 0 := by
  unfold openings
  cases harvester.started with
  | false => rfl
  | true => simp only [if_true, List.countP_singleton, Bool.true_and]

theorem openings_completed : (openings harvester).filterMap (·.completed?) = [] := by
  unfold openings
  cases harvester.started with
  | false | true => rfl

theorem completions_countP {p : Event → Bool}
    (others : ∀ url selector records mode, p (.completed url selector records mode) = false) :
    (work.completions outcome).countP p = 0 := by
  refine List.countP_eq_zero.mpr fun event member => ?_
  unfold Work.completions at member
  cases outcome with
  | error failure => exact absurd member List.not_mem_nil
  | ok value =>
      have announced : work.completion? value = some event := Option.mem_toList.mp member
      unfold Work.completion? at announced
      split at announced
      · obtain ⟨count, -, rfl⟩ := Option.map_eq_some_iff.mp announced
        exact ne_true_of_eq_false (others _ _ _ _)
      · cases announced

theorem Account.refused (failure : Failure) :
    Account harvester work 0 (.error failure) [.stranded] where
  retried := rfl
  failed := rfl
  observed := by cases harvester.config.onError <;> rfl
  opened := by cases harvester.started <;> rfl
  completed := rfl
  counted := by rintro _ ⟨⟩

theorem Account.succeeded {value : Value}
    (counted : (work.completion? value).isSome = work.goal.isRecords) :
    Account harvester work 1 (.ok value) (openings harvester ++ work.completions (.ok value)) := by
  have none {p : Event → Bool}
      (others : ∀ url selector records mode, p (.completed url selector records mode) = false)
      (apart : p .opens = false) :
      (openings harvester ++ work.completions (.ok value)).countP p = 0 := by
    rw [List.countP_append, openings_countP, completions_countP others, apart, Bool.and_false]
    rfl
  refine ⟨?_, ?_, ?_, ?_, ?_, fun other same => Except.ok.inj same ▸ counted⟩
  · rw [none (fun _ _ _ _ => rfl) rfl, none (fun _ _ _ _ => rfl) rfl]
  · rw [none (fun _ _ _ _ => rfl) rfl, none (fun _ _ _ _ => rfl) rfl]
    rfl
  · rw [none (fun _ _ _ _ => rfl) rfl, none (fun _ _ _ _ => rfl) rfl, ite_self]
  · rw [List.countP_append, openings_countP, completions_countP fun _ _ _ _ => rfl]
    cases harvester.started with
    | true | false => rfl
  · rw [List.filterMap_append, openings_completed, List.nil_append]

theorem Account.reported (failure : Failure) :
    Account harvester work 1 (.error failure)
      (openings harvester ++
        .reported :: if harvester.config.onError then [.observed] else []) := by
  refine ⟨?_, ?_, ?_, ?_, ?_, by rintro _ ⟨⟩⟩
  all_goals
    simp only [List.countP_append, List.filterMap_append, openings_countP, openings_completed]
    cases harvester.started
  all_goals
    cases harvester.config.onError
  all_goals rfl

/-- One more attempt before the others, which has failed and has been announced to be made again. -/
theorem Account.retry {attempts : Nat} {log : List Event}
    (rest : Account harvester work attempts outcome log) :
    Account harvester work (attempts + 1) outcome (openings harvester ++ .retried :: log) := by
  have step (p : Event → Bool) : (openings harvester ++ .retried :: log).countP p =
      (if harvester.started && p .opens then 1 else 0) +
        (log.countP p + if p .retried then 1 else 0) := by
    rw [List.countP_append, openings_countP, List.countP_cons]
  have same {p : Event → Bool} (apart : p .opens = false) (other : p .retried = false) :
      (openings harvester ++ .retried :: log).countP p = log.countP p := by
    rw [step, apart, other, Bool.and_false]
    exact Nat.zero_add _
  have again : (openings harvester ++ .retried :: log).countP (·.isRetried) =
      log.countP (·.isRetried) + 1 := by
    have apart : Event.opens.isRetried = false := rfl
    rw [step, apart, Bool.and_false]
    exact Nat.zero_add _
  refine ⟨?_, ?_, ?_, ?_, ?_, rest.counted⟩
  · rw [again, same rfl rfl, rest.retried]
    omega
  · rw [same rfl rfl, same rfl rfl, rest.failed]
  · rw [same rfl rfl, same rfl rfl, rest.observed]
  · rw [step, rest.opened]
    cases harvester.started with
    | true => exact Nat.add_comm 1 attempts
    | false => rfl
  · rw [List.filterMap_append, openings_completed, List.nil_append, List.filterMap_cons_none rfl]
    exact rest.completed

theorem tried_account {started : Int} {number : Nat} {tries : List (Retry.Try Value)}
    (tried : Retry.Tried harvester.controller (work.attempt harvester) (work.policy harvester)
      work.context started number tries outcome)
    (mild : ∀ exchange ∈ tries.flatMap Retry.Try.whole, exchange.IsMild) :
    Account harvester work tries.length outcome (events (tries.flatMap Retry.Try.whole)) ∧
      ∀ failure, outcome = .error failure → failure.isOrdinary = true := by
  have single (attempt : Retry.Try Value) :
      [attempt].flatMap Retry.Try.whole = attempt.trace ++ attempt.sequel := List.append_nil _
  induction tried with
  | @succeeded _ trace value ran =>
      rw [single, List.append_nil] at mild ⊢
      obtain ⟨told, counted⟩ := attempt_events ran mild
      rw [told]
      exact ⟨.succeeded (counted value rfl), by rintro _ ⟨⟩⟩
  | @interrupted _ trace failure ran interrupts =>
      rw [single, List.append_nil] at mild
      have ordinary := (attempt_surfaces ran).foreign.ordinary mild failure rfl
      rw [interrupts] at ordinary
      cases ordinary
  | @reported _ trace sequel failure reply ran ordinary reports =>
      rw [single] at mild ⊢
      rw [List.forall_mem_append] at mild
      obtain ⟨rfl, told⟩ := (Retry.report_filed rfl reports).events mild.2
      rw [events_append, (attempt_events ran mild.1).1, told, Work.completions, List.append_nil]
      refine ⟨.reported failure, fun fault fails => ?_⟩
      obtain rfl := Except.error.inj fails
      exact ordinary
  | @stranded _ trace sequel failure fault ran _ pauses =>
      rw [single] at mild ⊢
      rw [List.forall_mem_append] at mild
      have announced := Retry.pause_announced rfl pauses
      have ordinary := announced.sourced.ordinary mild.2 fault rfl
      rw [events_append, (attempt_events ran mild.1).1, announced.events mild.2, Work.completions,
        List.append_nil]
      refine ⟨(Account.refused fault).retry, fun other fails => ?_⟩
      obtain rfl := Except.error.inj fails
      exact ordinary
  | @retried _ trace sequel failure tries outcome ran _ _ pauses _ ih =>
      rw [List.flatMap_cons, List.forall_mem_append, Retry.Try.whole,
        List.forall_mem_append] at mild
      obtain ⟨account, ordinary⟩ := ih mild.2
      rw [List.flatMap_cons, Retry.Try.whole, events_append, events_append,
        (attempt_events ran mild.1.1).1, (Retry.pause_announced rfl pauses).events mild.1.2,
        Work.completions, List.append_nil, List.append_assoc]
      exact ⟨account.retry, ordinary⟩

/-- The events of a unit of work add up, and its failure is an ordinary one. -/
theorem Work.Pursued.account {tries : List (Retry.Try Value)} {trace : List Exchange}
    (pursued : work.Pursued harvester tries trace outcome)
    (mild : ∀ exchange ∈ trace, exchange.IsMild) :
    Account harvester work tries.length outcome (events trace) ∧
      ∀ failure, outcome = .error failure → failure.isOrdinary = true := by
  cases pursued with
  | @refused trace failure lost =>
      refine ⟨?_, (acquire_sources work.url trace _ lost).of_error.ordinary mild⟩
      rw [acquire_events lost]
      exact .refused failure
  | admitted passes tried =>
      rw [List.forall_mem_append, List.forall_mem_cons] at mild
      rw [events_append, acquire_events passes]
      exact tried_account tried mild.2.2

end Accounts

end Harvester

end WebHarvest
