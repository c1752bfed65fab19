import WebHarvest.Browser.Lifecycle
import WebHarvest.Proofs.Program.Reach

/-!
# Whole lives of a browser layer

A layer is started and stopped any number of times, in any order, and every call that this makes to
the engine may succeed or fail. An account is kept of the engines, browsers and contexts that the
engine has handed over, of those that the layer holds, and of those that it has asked the engine to
close. The account is balanced as long as no start takes an engine while one is held and no closing
of a context or of a browser fails: these two ways, and no others, lose something.
-/

set_option autoImplicit false

namespace WebHarvest

namespace Browser

/-- What the engine hands over to the layer and gets back when it is closed. -/
inductive Resource where
  | engine (id : ResourceId)
  | browser (id : ResourceId)
  | context (id : ResourceId)
  deriving DecidableEq

/-- The call that closes a resource. -/
def Resource.closing : Resource → Call
  | engine id => .stopEngine id
  | browser id => .closeBrowser id
  | context id => .closeContext id

def Resource.isEngine : Resource → Bool
  | engine _ => true
  | _ => false

/-- What is held, in the order in which it is closed. -/
def Held.resources (held : Held) : List Resource :=
  (held.context.map .context).toList ++ (held.browser.map .browser).toList ++
    (held.engine.map .engine).toList

/-- Holds a resource in place of another one of its sort. -/
def Held.put (held : Held) : Resource → Held
  | .engine id => { held with engine := some id }
  | .browser id => { held with browser := some id }
  | .context id => { held with context := some id }

/-- What is held of the sort of a resource. -/
def Held.like (held : Held) : Resource → Option Resource
  | .engine _ => held.engine.map .engine
  | .browser _ => held.browser.map .browser
  | .context _ => held.context.map .context

end Browser

open Browser

namespace Exchange

/-- The resource that a call has been given. -/
def obtained? : Exchange → Option Resource
  | ⟨.browser .startEngine, .ok reply⟩ => some (.engine (numberOf reply))
  | ⟨.browser (.launch _), .ok reply⟩ => some (.browser (numberOf reply))
  | ⟨.browser (.newContext _), .ok reply⟩ => some (.context (numberOf reply))
  | _ => none

/-- The resource that a call has asked to close, whatever the reply. -/
def released? : Exchange → Option Resource
  | ⟨.browser (.stopEngine id), _⟩ => some (.engine id)
  | ⟨.browser (.closeBrowser id), _⟩ => some (.browser id)
  | ⟨.browser (.closeContext id), _⟩ => some (.context id)
  | _ => none

/-- The engine has been started. -/
def engages : Exchange → Bool
  | ⟨.browser .startEngine, .ok _⟩ => true
  | _ => false

/-- A context or a browser could not be closed, so that what is to be closed after it is not. -/
def jams : Exchange → Bool
  | ⟨.browser (.closeContext _), .error _⟩ => true
  | ⟨.browser (.closeBrowser _), .error _⟩ => true
  | _ => false

end Exchange

def obtained (trace : List Exchange) : List Resource := trace.filterMap Exchange.obtained?

def released (trace : List Exchange) : List Resource := trace.filterMap Exchange.released?

section Traces

variable {trace more : List Exchange} {exchange : Exchange}

@[simp] theorem obtained_append : obtained (trace ++ more) = obtained trace ++ obtained more :=
  List.filterMap_append

@[simp] theorem released_append : released (trace ++ more) = released trace ++ released more :=
  List.filterMap_append

theorem obtained_cons :
    obtained (exchange :: trace) = exchange.obtained?.toList ++ obtained trace := by
  unfold obtained
  cases given : exchange.obtained? with
  | none => rw [List.filterMap_cons_none given, Option.toList_none, List.nil_append]
  | some resource => rw [List.filterMap_cons_some given, Option.toList_some, List.singleton_append]

theorem released_cons :
    released (exchange :: trace) = exchange.released?.toList ++ released trace := by
  unfold released
  cases given : exchange.released? with
  | none => rw [List.filterMap_cons_none given, Option.toList_none, List.nil_append]
  | some resource => rw [List.filterMap_cons_some given, Option.toList_some, List.singleton_append]

end Traces

namespace Browser

namespace Handling

variable {α β : Type}

/-- From what is held before, the operation ends with the outcome and with what is held after, when
the engine replies as in the trace. -/
def Runs (operation : Handling α) (held : Held) (trace : List Exchange)
    (outcome : Except Failure α) (after : Held) : Prop :=
  (operation.run.run held).Runs trace (outcome, after)

variable {held after : Held} {trace : List Exchange}

theorem runs_pure {result : α} {outcome : Except Failure α} :
    Runs (pure result) held trace outcome after ↔
      trace = [] ∧ outcome = .ok result ∧ after = held := by
  refine Program.runs_done.trans ?_
  rw [Prod.mk.injEq]

theorem runs_throw {failure : Failure} {outcome : Except Failure α} :
    Runs (throw failure : Handling α) held trace outcome after ↔
      trace = [] ∧ outcome = .error failure ∧ after = held := by
  refine Program.runs_done.trans ?_
  rw [Prod.mk.injEq]

theorem runs_get {outcome : Except Failure Held} :
    Runs get held trace outcome after ↔ trace = [] ∧ outcome = .ok held ∧ after = held := by
  refine Program.runs_done.trans ?_
  rw [Prod.mk.injEq]

theorem runs_set {next : Held} {outcome : Except Failure PUnit} :
    Runs (set next) held trace outcome after ↔ trace = [] ∧ outcome = .ok ⟨⟩ ∧ after = next := by
  refine Program.runs_done.trans ?_
  rw [Prod.mk.injEq]

theorem runs_modify {edit : Held → Held} {outcome : Except Failure PUnit} :
    Runs (modify edit) held trace outcome after ↔
      trace = [] ∧ outcome = .ok ⟨⟩ ∧ after = edit held := by
  refine Program.runs_done.trans ?_
  rw [Prod.mk.injEq]

/-- The second operation runs from what the first has left, when that has succeeded. -/
theorem runs_bind {operation : Handling α} {next : α → Handling β} {outcome : Except Failure β} :
    Runs (operation >>= next) held trace outcome after ↔
      (∃ before result middle rest, operation.Runs held before (.ok result) middle ∧
        (next result).Runs middle rest outcome after ∧ trace = before ++ rest) ∨
      ∃ failure, operation.Runs held trace (.error failure) after ∧ outcome = .error failure := by
  have unfolded : Runs (operation >>= next) held trace outcome after ↔
      ((operation.run.run held).bind fun (inner, middle) =>
        (ExceptT.bindCont next inner).run middle).Runs trace (outcome, after) := Iff.rfl
  rw [unfolded, Program.runs_bind]
  constructor
  · rintro ⟨before, ⟨inner, middle⟩, rest, run, goesOn, rfl⟩
    cases inner with
    | ok result => exact Or.inl ⟨before, result, middle, rest, run, goesOn, rfl⟩
    | error failure =>
        obtain ⟨rfl, same⟩ := Program.runs_done.mp goesOn
        cases same
        rw [List.append_nil]
        exact Or.inr ⟨failure, run, rfl⟩
  · rintro (⟨before, result, middle, rest, run, goesOn, rfl⟩ | ⟨failure, run, rfl⟩)
    · exact ⟨before, (.ok result, middle), rest, run, goesOn, rfl⟩
    · exact ⟨trace, (.error failure, after), [], run, .done _, (List.append_nil _).symm⟩

theorem runs_ofAction {action : Action α} {outcome : Except Failure α} :
    (ofAction action).Runs held trace outcome after ↔
      action.Runs trace outcome ∧ after = held := by
  have unfolded : (ofAction action).Runs held trace outcome after ↔
      (action.run.bind fun inner => .done (inner, held)).Runs trace (outcome, after) := Iff.rfl
  rw [unfolded, Program.runs_bind]
  constructor
  · rintro ⟨before, inner, rest, run, ends, rfl⟩
    obtain ⟨rfl, same⟩ := Program.runs_done.mp ends
    cases same
    rw [List.append_nil]
    exact ⟨run, rfl⟩
  · rintro ⟨run, rfl⟩
    exact ⟨trace, outcome, [], run, .done _, (List.append_nil _).symm⟩

theorem runs_attempt {operation : Handling α} {outcome : Except Failure (Except Failure α)} :
    operation.attempt.Runs held trace outcome after ↔
      ∃ inner, operation.Runs held trace inner after ∧ outcome = .ok inner := by
  have unfolded : operation.attempt.Runs held trace outcome after ↔
      ((operation.run.run held).bind fun (inner, middle) => .done (.ok inner, middle)).Runs trace
        (outcome, after) := Iff.rfl
  rw [unfolded, Program.runs_bind]
  constructor
  · rintro ⟨before, ⟨inner, middle⟩, rest, run, ends, rfl⟩
    obtain ⟨rfl, same⟩ := Program.runs_done.mp ends
    cases same
    rw [List.append_nil]
    exact ⟨inner, run, rfl⟩
  · rintro ⟨inner, run, rfl⟩
    exact ⟨trace, (inner, after), [], run, .done _, (List.append_nil _).symm⟩

end Handling

/-- What is held after an exchange. -/
def Held.take (held : Held) (exchange : Exchange) : Held :=
  (exchange.obtained?.map held.put).getD held

/-- The calls are made one after another, up to the first that fails, and what they hand over is
held. -/
inductive Tried : List Call → Held → List Exchange → Except Failure Unit → Held → Prop where
  | done {held : Held} : Tried [] held [] (.ok ()) held
  | succeeded {call : Call} {calls : List Call} {held after : Held} {reply : Value}
      {trace : List Exchange} {outcome : Except Failure Unit}
      (rest : Tried calls (held.take ⟨.browser call, .ok reply⟩) trace outcome after) :
      Tried (call :: calls) held (⟨.browser call, .ok reply⟩ :: trace) outcome after
  | failed {call : Call} {calls : List Call} {held : Held} {failure : Failure} :
      Tried (call :: calls) held [⟨.browser call, .error failure⟩] (.error failure) held

namespace Tried

variable {calls more : List Call} {held middle after : Held} {before trace : List Exchange}
  {outcome : Except Failure Unit}

theorem append (tried : Tried calls held before (.ok ()) middle)
    (others : Tried more middle trace outcome after) :
    Tried (calls ++ more) held (before ++ trace) outcome after := by
  generalize goesWell : (Except.ok () : Except Failure Unit) = result at tried
  induction tried with
  | done => exact others
  | succeeded _ ih => exact .succeeded (ih others goesWell)
  | failed => cases goesWell

theorem append_of_error {failure : Failure}
    (tried : Tried calls held trace (.error failure) after) (more : List Call) :
    Tried (calls ++ more) held trace (.error failure) after := by
  generalize fails : (Except.error failure : Except Failure Unit) = result at tried
  induction tried with
  | done => cases fails
  | succeeded _ ih => exact .succeeded (ih fails)
  | failed => exact .failed

theorem after_eq (tried : Tried calls held trace outcome after) :
    after = (obtained trace).foldl Held.put held := by
  induction tried with
  | done => rfl
  | @succeeded call _ held _ reply trace _ _ ih =>
      rw [ih, Held.take, obtained_cons]
      cases Exchange.obtained? ⟨.browser call, .ok reply⟩ with
      | none => rfl
      | some resource => rfl
  | @failed call _ held failure =>
      cases call <;> rfl

/-- The exchanges are calls of the list. -/
theorem mem_calls (tried : Tried calls held trace outcome after) :
    ∀ exchange ∈ trace, ∃ call ∈ calls, ∃ reply, exchange = ⟨.browser call, reply⟩ := by
  induction tried with
  | done => exact fun _ member => absurd member List.not_mem_nil
  | succeeded _ ih =>
      refine List.forall_mem_cons.mpr ⟨⟨_, List.mem_cons_self, _, rfl⟩, fun exchange member => ?_⟩
      obtain ⟨call, known, reply, same⟩ := ih exchange member
      exact ⟨call, List.mem_cons_of_mem _ known, reply, same⟩
  | failed => exact List.forall_mem_singleton.mpr ⟨_, List.mem_cons_self, _, rfl⟩

/-- The first failure among the exchanges is the last of them. -/
theorem split_of_error {failure : Failure} (tried : Tried calls held trace (.error failure) after) :
    ∃ front call, trace = front ++ [⟨.browser call, .error failure⟩] ∧
      ∀ exchange ∈ front, exchange.failure? = none := by
  generalize fails : (Except.error failure : Except Failure Unit) = result at tried
  induction tried with
  | done => cases fails
  | @succeeded call _ _ _ reply _ _ _ ih =>
      obtain ⟨front, last, rfl, well⟩ := ih fails
      exact ⟨_ :: front, last, rfl, List.forall_mem_cons.mpr ⟨rfl, well⟩⟩
  | failed =>
      cases fails
      exact ⟨[], _, rfl, fun _ member => absurd member List.not_mem_nil⟩

end Tried

/-- Whatever is held and replied, the operation makes the calls up to the first that fails. -/
def Handling.Follows (operation : Handling Unit) (calls : List Call) : Prop :=
  ∀ ⦃held trace outcome after⦄, operation.Runs held trace outcome after →
    Tried calls held trace outcome after

section Following

theorem follows_pure : (pure () : Handling Unit).Follows [] := by
  intro held trace outcome after run
  obtain ⟨rfl, rfl, rfl⟩ := Handling.runs_pure.mp run
  exact .done

theorem follows_bind {operation : Handling Unit} {next : Unit → Handling Unit}
    (calls : List Call) {more : List Call} (first : operation.Follows calls)
    (rest : (next ()).Follows more) :
    (operation >>= next).Follows (calls ++ more) := by
  intro held trace outcome after run
  rcases Handling.runs_bind.mp run with
    ⟨before, done, middle, others, ran, goesOn, rfl⟩ | ⟨failure, ran, rfl⟩
  · exact (first ran).append (rest goesOn)
  · exact (first ran).append_of_error more

theorem follows_take {call : Call} {hold : Held → ResourceId → Held}
    (holds : ∀ held reply,
      hold held (numberOf reply) = Held.take held ⟨.browser call, .ok reply⟩) :
    (Handling.take call hold).Follows [call] := by
  intro held trace outcome after run
  rcases Handling.runs_bind.mp run with
    ⟨before, reply, middle, others, ran, goesOn, rfl⟩ | ⟨failure, ran, rfl⟩
  · obtain ⟨called, rfl⟩ := Handling.runs_ofAction.mp ran
    obtain rfl := Program.runs_request.mp called
    obtain ⟨rfl, rfl, rfl⟩ := Handling.runs_modify.mp goesOn
    rw [holds]
    exact .succeeded .done
  · obtain ⟨called, rfl⟩ := Handling.runs_ofAction.mp ran
    obtain rfl := Program.runs_request.mp called
    exact .failed

theorem follows_call {call : Call} (nothing : call.creates = false) :
    (Handling.call call).Follows [call] := by
  intro held trace outcome after run
  rcases Handling.runs_bind.mp run with
    ⟨before, reply, middle, others, ran, goesOn, rfl⟩ | ⟨failure, ran, rfl⟩
  · obtain ⟨called, rfl⟩ := Handling.runs_ofAction.mp ran
    obtain rfl := Program.runs_request.mp called
    obtain ⟨rfl, rfl, rfl⟩ := Handling.runs_pure.mp goesOn
    have kept (held : Held) : held.take ⟨.browser call, .ok reply⟩ = held := by
      cases call <;> first | rfl | cases nothing
    refine .succeeded ?_
    rw [kept]
    exact .done
  · obtain ⟨called, rfl⟩ := Handling.runs_ofAction.mp ran
    obtain rfl := Program.runs_request.mp called
    exact .failed

theorem follows_close {resource : Option ResourceId} {closing : ResourceId → Call}
    (nothing : ∀ id, (closing id).creates = false) :
    (Handling.close resource closing).Follows (resource.map closing).toList := by
  cases resource with
  | none => exact follows_pure
  | some id => exact follows_call (nothing id)

theorem release_tried {held after : Held} {trace : List Exchange} {outcome : Except Failure Unit}
    (run : release.Runs held trace outcome after) :
    Tried (held.resources.map Resource.closing) held trace outcome after := by
  have closes : (do
      Handling.close held.context .closeContext
      Handling.close held.browser .closeBrowser
      Handling.close held.engine .stopEngine : Handling Unit).Follows
        (held.resources.map Resource.closing) := by
    have calls : held.resources.map Resource.closing =
        (held.context.map Call.closeContext).toList ++
          ((held.browser.map Call.closeBrowser).toList ++
            (held.engine.map Call.stopEngine).toList) := by
      obtain ⟨engine, browser, context⟩ := held
      cases engine <;> cases browser <;> cases context <;> rfl
    rw [calls]
    exact follows_bind _ (follows_close fun _ => rfl) <|
      follows_bind _ (follows_close fun _ => rfl) (follows_close fun _ => rfl)
  rcases Handling.runs_bind.mp run with
    ⟨before, found, middle, others, got, goesOn, rfl⟩ | ⟨failure, got, -⟩
  · obtain ⟨rfl, same, rfl⟩ := Handling.runs_get.mp got
    cases same
    exact closes goesOn
  · obtain ⟨-, same, -⟩ := Handling.runs_get.mp got
    cases same

/-- The calls of a start, when all of them succeed. -/
def startCalls (config : HarvesterConfig) (storageState : Option String) : List Call :=
  [.startEngine, .launch (launchOptions config),
    .newContext (contextOptions config storageState), .setDefaultTimeout config.timeoutMs] ++
    if config.cookies.isEmpty then [] else [.addCookies (.list (config.cookies.map .record))]

theorem bootstrap_follows (config : HarvesterConfig) (storageState : Option String) :
    (bootstrap config storageState).Follows (startCalls config storageState) := by
  unfold bootstrap startCalls
  refine follows_bind [.startEngine] (follows_take fun _ _ => rfl) ?_
  refine follows_bind [.launch _] (follows_take fun _ _ => rfl) ?_
  refine follows_bind [.newContext _] (follows_take fun _ _ => rfl) ?_
  refine follows_bind [.setDefaultTimeout _] (follows_call rfl) ?_
  cases config.cookies.isEmpty with
  | true => exact follows_pure
  | false => exact follows_call rfl

end Following

section Stages

variable {held after : Held} {trace : List Exchange} {outcome : Except Failure Unit}

/-- An exchange of a log record, which neither hands over nor closes anything. -/
def IsReport (exchange : Exchange) : Prop := ∃ record, exchange.request = .log record

theorem log_runs {record : LogRecord} {outcome : Except Failure Unit}
    (run : (Handling.ofAction (Action.log record)).Runs held trace outcome after) :
    (∀ exchange ∈ trace, IsReport exchange) ∧ outcome = .ok () ∧ after = held := by
  obtain ⟨logged, rfl⟩ := Handling.runs_ofAction.mp run
  obtain ⟨reply, rfl, rfl⟩ := Action.runs_query.mp logged
  exact ⟨List.forall_mem_singleton.mpr ⟨record, rfl⟩, rfl, rfl⟩

/-- A stop closes what is held up to the first closing that fails, and then holds nothing. -/
theorem stop_runs (run : stop.Runs held trace outcome after) :
    after = {} ∧ ∃ closings result middle reports, trace = closings ++ reports ∧
      Tried (held.resources.map Resource.closing) held closings result middle ∧
      ∀ exchange ∈ reports, IsReport exchange := by
  rcases Handling.runs_bind.mp run with
    ⟨closings, inner, middle, others, attempted, goesOn, rfl⟩ | ⟨failure, attempted, -⟩
  · obtain ⟨_, closed, same⟩ := Handling.runs_attempt.mp attempted
    cases same
    have tried := release_tried closed
    cases inner with
    | ok =>
        obtain ⟨rfl, -, rfl⟩ := Handling.runs_set.mp goesOn
        exact ⟨rfl, closings, _, _, [], rfl, tried, fun _ member => absurd member List.not_mem_nil⟩
    | error failure =>
        cases engine : failure.isBrowser with
        | true =>
            simp only [engine, if_true] at goesOn
            rcases Handling.runs_bind.mp goesOn with
              ⟨reports, _, _, nothing, logged, cleared, rfl⟩ | ⟨_, logged, -⟩
            · obtain ⟨areReports, -, -⟩ := log_runs logged
              obtain ⟨rfl, -, rfl⟩ := Handling.runs_set.mp cleared
              rw [List.append_nil]
              exact ⟨rfl, closings, _, _, reports, rfl, tried, areReports⟩
            · exact absurd (log_runs logged).2.1 nofun
        | false =>
            simp only [engine, Bool.false_eq_true, if_false] at goesOn
            rcases Handling.runs_bind.mp goesOn with
              ⟨_, _, _, nothing, cleared, thrown, rfl⟩ | ⟨_, cleared, -⟩
            · obtain ⟨rfl, -, rfl⟩ := Handling.runs_set.mp cleared
              obtain ⟨rfl, -, rfl⟩ := Handling.runs_throw.mp thrown
              exact ⟨rfl, closings, _, _, [], rfl, tried,
                fun _ member => absurd member List.not_mem_nil⟩
            · exact absurd (Handling.runs_set.mp cleared).2.1 nofun
  · obtain ⟨_, -, same⟩ := Handling.runs_attempt.mp attempted
    cases same

/-- A start makes its calls up to the first that fails. Only after a failure of the engine does it
stop; after any other failure it holds what it has been given. -/
theorem start_runs {config : HarvesterConfig} {storageState : Option String}
    (run : (start config storageState).Runs held trace outcome after) :
    ∃ calls result middle others, trace = calls ++ others ∧
      Tried (startCalls config storageState) held calls result middle ∧
      match result with
      | .ok () => outcome = .ok () ∧ after = middle ∧ ∀ exchange ∈ others, IsReport exchange
      | .error failure =>
          if failure.isBrowser = true then
            (∃ stopped, stop.Runs middle others stopped after) ∧ ∃ last, outcome = .error last
          else others = [] ∧ outcome = .error failure ∧ after = middle := by
  rcases Handling.runs_bind.mp run with
    ⟨calls, inner, middle, others, attempted, goesOn, rfl⟩ | ⟨failure, attempted, -⟩
  · obtain ⟨_, booted, same⟩ := Handling.runs_attempt.mp attempted
    cases same
    refine ⟨calls, inner, middle, others, rfl, bootstrap_follows _ _ booted, ?_⟩
    cases inner with
    | ok =>
        obtain ⟨areReports, succeeds, kept⟩ := log_runs goesOn
        exact ⟨succeeds, kept, areReports⟩
    | error failure =>
        dsimp only at goesOn ⊢
        split
        · rename_i engine
          rw [if_pos engine] at goesOn
          rcases Handling.runs_bind.mp goesOn with
            ⟨stopping, _, _, nothing, stopped, thrown, rfl⟩ | ⟨last, stopped, fails⟩
          · obtain ⟨rfl, fails, rfl⟩ := Handling.runs_throw.mp thrown
            rw [List.append_nil]
            exact ⟨⟨_, stopped⟩, _, fails⟩
          · exact ⟨⟨_, stopped⟩, last, fails⟩
        · rename_i foreign
          rw [if_neg foreign] at goesOn
          exact Handling.runs_throw.mp goesOn
  · obtain ⟨_, -, same⟩ := Handling.runs_attempt.mp attempted
    cases same

end Stages

/-- What is held has been handed over one after the other: a context needs a browser, and a browser
an engine. -/
inductive Held.Nested : Held → Prop where
  | nothing : Nested {}
  | engine (engine : ResourceId) : Nested { engine := some engine }
  | browser (engine browser : ResourceId) :
      Nested { engine := some engine, browser := some browser }
  | context (engine browser context : ResourceId) :
      Nested { engine := some engine, browser := some browser, context := some context }

/-- What one start is given, in this order. -/
inductive Stacked : List Resource → Prop where
  | nothing : Stacked []
  | engine (engine : ResourceId) : Stacked [.engine engine]
  | browser (engine browser : ResourceId) : Stacked [.engine engine, .browser browser]
  | context (engine browser context : ResourceId) :
      Stacked [.engine engine, .browser browser, .context context]

/-- No engine is started while one is held, and every context and browser can be closed. -/
def Orderly (held : Held) (trace : List Exchange) : Prop :=
  (held.engine.isSome = true → ∀ exchange ∈ trace, exchange.engages = false) ∧
    ∀ exchange ∈ trace, exchange.jams = false

/-- Each resource that has been held or handed over is still held, has been closed, or is lost. -/
def Accounts (held : Held) (trace : List Exchange) (after : Held) (lost : List Resource) : Prop :=
  ∀ resource, held.resources.count resource + (obtained trace).count resource =
    after.resources.count resource + (released trace).count resource + lost.count resource

/-- What is no longer held because something of its sort is held in its place. -/
def Held.displaced (held : Held) : List Resource → List Resource
  | [] => []
  | resource :: rest => (held.like resource).toList ++ (held.put resource).displaced rest

section Balance

variable {held middle after : Held} {trace : List Exchange} {outcome : Except Failure Unit}

theorem count_put (held : Held) (resource other : Resource) :
    held.resources.count other + [resource].count other =
      (held.put resource).resources.count other + (held.like resource).toList.count other := by
  cases resource <;>
    simp only [Held.resources, Held.put, Held.like, List.count_append, Option.map_some,
      Option.toList_some] <;> omega

theorem count_displaced (held : Held) (given : List Resource) (other : Resource) :
    held.resources.count other + given.count other =
      (given.foldl Held.put held).resources.count other + (held.displaced given).count other := by
  induction given generalizing held with
  | nil => rfl
  | cons resource rest ih =>
      have one := count_put held resource other
      have others := ih (held.put resource)
      have split : (resource :: rest).count other = [resource].count other + rest.count other := by
        rw [← List.singleton_append, List.count_append]
      rw [Held.displaced, List.foldl_cons, List.count_append, split]
      omega

theorem Held.Nested.foldl_put (nested : held.Nested) {given : List Resource}
    (stacked : Stacked given) : (given.foldl Held.put held).Nested := by
  cases stacked <;> cases nested <;> constructor

/-- A start puts nothing in place of anything else unless it takes an engine while one is held. -/
theorem Held.Nested.displaced_eq_nil_iff (nested : held.Nested) {given : List Resource}
    (stacked : Stacked given) :
    held.displaced given = [] ↔ (held.engine.isSome = true → given = []) := by
  cases stacked <;> cases nested <;> simp [Held.displaced, Held.like, Held.put]

/-- Calls that create nothing are given nothing. -/
theorem obtained_of_quiet {calls : List Call} (quiet : ∀ call ∈ calls, call.creates = false)
    (tried : Tried calls held trace outcome after) : obtained trace = [] := by
  refine List.filterMap_eq_nil_iff.mpr fun exchange member => ?_
  obtain ⟨call, known, reply, rfl⟩ := tried.mem_calls exchange member
  have nothing := quiet call known
  cases call <;> first | rfl | cases nothing

/-- A start is given an engine, a browser and a context, or the first of them. -/
theorem start_stacked {config : HarvesterConfig} {storageState : Option String}
    (tried : Tried (startCalls config storageState) held trace outcome after) :
    Stacked (obtained trace) := by
  unfold startCalls at tried
  cases tried with
  | failed => exact .nothing
  | succeeded launching =>
      cases launching with
      | failed => exact .engine _
      | succeeded opening =>
          cases opening with
          | failed => exact .browser _ _
          | succeeded others =>
              rw [obtained_cons, obtained_cons, obtained_cons, obtained_of_quiet ?_ others]
              · exact .context _ _ _
              · refine List.forall_mem_cons.mpr ⟨rfl, ?_⟩
                split <;> simp [Call.creates]

theorem engages_iff (exchange : Exchange) :
    exchange.engages = true ↔ ∃ id, exchange.obtained? = some (.engine id) := by
  constructor
  · intro engages
    unfold Exchange.engages at engages
    split at engages
    · exact ⟨_, rfl⟩
    · cases engages
  · rintro ⟨id, given⟩
    unfold Exchange.obtained? at given
    split at given
    · rfl
    all_goals cases given

/-- A start is given nothing as long as the engine is not started. -/
theorem obtained_eq_nil_iff (stacked : Stacked (obtained trace)) :
    obtained trace = [] ↔ ∀ exchange ∈ trace, exchange.engages = false := by
  constructor
  · intro nothing exchange member
    rw [← Bool.not_eq_true, engages_iff]
    rintro ⟨id, given⟩
    have known := List.mem_filterMap.mpr ⟨exchange, member, given⟩
    rw [show trace.filterMap Exchange.obtained? = [] from nothing] at known
    cases known
  · intro disengaged
    have none (id : ResourceId) : .engine id ∉ obtained trace := by
      intro known
      obtain ⟨exchange, member, given⟩ := List.mem_filterMap.mp known
      have engages := (engages_iff exchange).mpr ⟨id, given⟩
      rw [disengaged exchange member] at engages
      cases engages
    generalize obtained trace = given at stacked none ⊢
    cases stacked with
    | nothing => rfl
    | engine id => exact absurd List.mem_cons_self (none id)
    | browser id => exact absurd List.mem_cons_self (none id)
    | context id => exact absurd List.mem_cons_self (none id)

/-- A start closes nothing by itself. -/
theorem start_closes_nothing {config : HarvesterConfig} {storageState : Option String}
    (tried : Tried (startCalls config storageState) held trace outcome after) :
    released trace = [] ∧ ∀ exchange ∈ trace, exchange.jams = false := by
  have apart : ∀ exchange ∈ trace, exchange.released? = none ∧ exchange.jams = false := by
    intro exchange member
    obtain ⟨call, known, reply, rfl⟩ := tried.mem_calls exchange member
    unfold startCalls at known
    split at known <;>
      simp only [List.cons_append, List.nil_append, List.mem_cons, List.not_mem_nil,
        or_false] at known
    · rcases known with rfl | rfl | rfl | rfl <;> exact ⟨rfl, rfl⟩
    · rcases known with rfl | rfl | rfl | rfl | rfl <;> exact ⟨rfl, rfl⟩
  exact ⟨List.filterMap_eq_nil_iff.mpr fun exchange member => (apart exchange member).1,
    fun exchange member => (apart exchange member).2⟩

section Closing

variable {resource : Resource}

theorem obtained?_closing {reply : Except Failure Value} :
    Exchange.obtained? ⟨.browser resource.closing, reply⟩ = none := by
  cases resource <;> rfl

theorem released?_closing {reply : Except Failure Value} :
    Exchange.released? ⟨.browser resource.closing, reply⟩ = some resource := by
  cases resource <;> rfl

theorem engages_closing {reply : Except Failure Value} :
    Exchange.engages ⟨.browser resource.closing, reply⟩ = false := by
  cases resource <;> rfl

theorem jams_closing_ok {reply : Value} :
    Exchange.jams ⟨.browser resource.closing, .ok reply⟩ = false := by
  cases resource <;> rfl

/-- Nothing is closed after an engine. -/
theorem jams_closing_error {failure : Failure} :
    Exchange.jams ⟨.browser resource.closing, .error failure⟩ = !resource.isEngine := by
  cases resource <;> rfl

end Closing

/-- The engine is the last of the resources. -/
def EngineLast : List Resource → Prop
  | [] => True
  | resource :: rest => (resource.isEngine = true ↔ rest = []) ∧ EngineLast rest

theorem Held.Nested.engineLast (nested : held.Nested) : EngineLast held.resources := by
  cases nested <;> simp [EngineLast, Held.resources, Resource.isEngine]

/-- Closings hand over nothing, and come to their end unless a context or a browser cannot be
closed. -/
theorem closings_left {resources : List Resource} (last : EngineLast resources)
    (tried : Tried (resources.map Resource.closing) held trace outcome after) :
    obtained trace = [] ∧ (∀ exchange ∈ trace, exchange.engages = false) ∧
      ∃ left, resources = released trace ++ left ∧
        (left = [] ↔ ∀ exchange ∈ trace, exchange.jams = false) := by
  induction resources generalizing held trace with
  | nil =>
      cases tried
      exact ⟨rfl, by simp, [], rfl, by simp⟩
  | cons resource rest ih =>
      obtain ⟨isLast, last⟩ := last
      cases tried with
      | succeeded others =>
          obtain ⟨nothing, disengaged, left, rfl, complete⟩ := ih last others
          refine ⟨?_, List.forall_mem_cons.mpr ⟨engages_closing, disengaged⟩, left, ?_, ?_⟩
          · rw [obtained_cons, obtained?_closing]
            exact nothing
          · rw [released_cons, released?_closing]
            rfl
          · rw [List.forall_mem_cons, complete]
            exact (and_iff_right jams_closing_ok).symm
      | failed =>
          refine ⟨?_, List.forall_mem_singleton.mpr engages_closing, rest, ?_, ?_⟩
          · rw [obtained_cons, obtained?_closing]
            rfl
          · rw [released_cons, released?_closing]
            rfl
          · rw [List.forall_mem_singleton, jams_closing_error, ← isLast, Bool.not_eq_false']

end Balance

section Calls

variable {held middle after : Held} {trace more : List Exchange} {outcome : Except Failure Unit}

theorem Accounts.append {lost moreLost : List Resource} (first : Accounts held trace middle lost)
    (rest : Accounts middle more after moreLost) :
    Accounts held (trace ++ more) after (lost ++ moreLost) := by
  intro resource
  have one := first resource
  have other := rest resource
  simp only [obtained_append, released_append, List.count_append]
  omega

theorem accounts_reports (held : Held) (reports : ∀ exchange ∈ trace, IsReport exchange) :
    Accounts held trace held [] ∧ (∀ exchange ∈ trace, exchange.engages = false) ∧
      ∀ exchange ∈ trace, exchange.jams = false := by
  have apart : ∀ exchange ∈ trace, exchange.obtained? = none ∧ exchange.released? = none ∧
      exchange.engages = false ∧ exchange.jams = false := by
    rintro ⟨request, reply⟩ member
    obtain ⟨record, rfl⟩ := reports _ member
    exact ⟨rfl, rfl, rfl, rfl⟩
  have nothing : obtained trace = [] :=
    List.filterMap_eq_nil_iff.mpr fun exchange member => (apart exchange member).1
  have none : released trace = [] :=
    List.filterMap_eq_nil_iff.mpr fun exchange member => (apart exchange member).2.1
  refine ⟨fun resource => ?_, fun exchange member => (apart exchange member).2.2.1,
    fun exchange member => (apart exchange member).2.2.2⟩
  rw [nothing, none]
  rfl

/-- A stop loses what comes after a context or a browser that cannot be closed. -/
theorem stop_accounts (nested : held.Nested) (run : stop.Runs held trace outcome after) :
    ∃ lost, Accounts held trace after lost ∧
      (lost = [] ↔ ∀ exchange ∈ trace, exchange.jams = false) ∧
      ∀ exchange ∈ trace, exchange.engages = false := by
  obtain ⟨rfl, closings, result, middle, reports, rfl, tried, areReports⟩ := stop_runs run
  obtain ⟨nothing, disengaged, left, all, complete⟩ := closings_left nested.engineLast tried
  obtain ⟨reported, reportsDisengaged, reportsFree⟩ :=
    accounts_reports {} areReports
  have closed : Accounts held closings {} left := by
    intro resource
    rw [all, nothing, List.count_append]
    exact (Nat.zero_add _).symm ▸ rfl
  refine ⟨left ++ [], closed.append reported, ?_, ?_⟩
  · rw [List.append_nil, complete, List.forall_mem_append]
    exact (and_iff_left reportsFree).symm
  · exact List.forall_mem_append.mpr ⟨disengaged, reportsDisengaged⟩

theorem start_accounts {config : HarvesterConfig} {storageState : Option String}
    (nested : held.Nested) (run : (start config storageState).Runs held trace outcome after) :
    after.Nested ∧ ∃ lost, Accounts held trace after lost ∧ (lost = [] ↔ Orderly held trace) := by
  obtain ⟨calls, result, middle, others, rfl, tried, ends⟩ := start_runs run
  have stacked := start_stacked tried
  obtain ⟨none, free⟩ := start_closes_nothing tried
  have middleIs := tried.after_eq
  have middleNested : middle.Nested := middleIs ▸ nested.foldl_put stacked
  have begun : Accounts held calls middle (held.displaced (obtained calls)) := by
    intro resource
    have balance := count_displaced held (obtained calls) resource
    rw [none, middleIs]
    exact balance
  have undisplaced : held.displaced (obtained calls) = [] ↔
      (held.engine.isSome = true → ∀ exchange ∈ calls, exchange.engages = false) := by
    rw [nested.displaced_eq_nil_iff stacked, obtained_eq_nil_iff stacked]
  -- What follows the calls of the start: a report, a stop, or nothing.
  obtain ⟨afterNested, more, followed, complete, disengaged⟩ : after.Nested ∧
      ∃ more, Accounts middle others after more ∧
        (more = [] ↔ ∀ exchange ∈ others, exchange.jams = false) ∧
        ∀ exchange ∈ others, exchange.engages = false := by
    cases result with
    | ok =>
        obtain ⟨-, rfl, areReports⟩ := ends
        obtain ⟨reported, disengaged, unjammed⟩ := accounts_reports after areReports
        exact ⟨middleNested, [], reported, iff_of_true rfl unjammed, disengaged⟩
    | error failure =>
        dsimp only at ends
        split at ends
        · obtain ⟨⟨stopped, ran⟩, -⟩ := ends
          obtain ⟨rfl, -⟩ := stop_runs ran
          exact ⟨.nothing, stop_accounts middleNested ran⟩
        · obtain ⟨rfl, -, rfl⟩ := ends
          exact ⟨middleNested, [], fun _ => rfl, by simp, by simp⟩
  refine ⟨afterNested, _, begun.append followed, ?_⟩
  rw [List.append_eq_nil_iff, undisplaced, complete, Orderly]
  simp only [List.forall_mem_append, iff_true_intro free, iff_true_intro disengaged, and_true,
    true_and]

end Calls

/-- A call on a layer. -/
inductive LayerCall where
  | start (storageState : Option String)
  | stop

def LayerCall.operation (config : HarvesterConfig) : LayerCall → Handling Unit
  | start storageState => Browser.start config storageState
  | stop => Browser.stop

/-- A call on a layer that has come to its end, with what the layer held before and after it. -/
structure Episode where
  call : LayerCall
  before : Held
  trace : List Exchange
  outcome : Except Failure Unit
  after : Held

/-- What may have become of a new layer after some calls on it, whatever the engine has replied. -/
inductive Lives (config : HarvesterConfig) : List Episode → Held → Prop where
  | new : Lives config [] {}
  | call {episodes : List Episode} {held after : Held} {trace : List Exchange}
      {outcome : Except Failure Unit} (lived : Lives config episodes held) (call : LayerCall)
      (run : (call.operation config).Runs held trace outcome after) :
      Lives config (episodes ++ [⟨call, held, trace, outcome, after⟩]) after

/-- The exchanges of the calls, in their order. -/
def tracesOf (episodes : List Episode) : List Exchange := episodes.flatMap (·.trace)

section Lives

variable {config : HarvesterConfig} {episodes : List Episode} {held : Held}

theorem episode_accounts {call : LayerCall} {after : Held} {trace : List Exchange}
    {outcome : Except Failure Unit} (nested : held.Nested)
    (run : (call.operation config).Runs held trace outcome after) :
    after.Nested ∧ ∃ lost, Accounts held trace after lost ∧ (lost = [] ↔ Orderly held trace) := by
  cases call with
  | start storageState => exact start_accounts nested run
  | stop =>
      obtain ⟨rfl, -⟩ := stop_runs run
      obtain ⟨lost, accounts, complete, disengaged⟩ := stop_accounts nested run
      exact ⟨.nothing, lost, accounts,
        complete.trans (and_iff_right fun _ => disengaged).symm⟩

theorem Lives.accounts (lives : Lives config episodes held) :
    held.Nested ∧ ∃ lost, Accounts {} (tracesOf episodes) held lost ∧
      (lost = [] ↔ ∀ episode ∈ episodes, Orderly episode.before episode.trace) := by
  induction lives with
  | new => exact ⟨.nothing, [], fun _ => rfl, by simp⟩
  | call _ call run ih =>
      obtain ⟨nested, lost, accounts, complete⟩ := ih
      obtain ⟨afterNested, more, own, ownComplete⟩ := episode_accounts nested run
      refine ⟨afterNested, lost ++ more, ?_, ?_⟩
      · rw [tracesOf, List.flatMap_append, List.flatMap_singleton]
        exact accounts.append own
      · rw [List.append_eq_nil_iff, complete, ownComplete, List.forall_mem_append,
          List.forall_mem_singleton]

theorem foldl_put_eq_empty {given : List Resource} (empty : given.foldl Held.put held = {}) :
    held = {} ∧ given = [] := by
  induction given generalizing held with
  | nil => exact ⟨empty, rfl⟩
  | cons resource rest ih =>
      have put := (ih empty).1
      cases resource with
      | engine id => cases congrArg Held.engine put
      | browser id => cases congrArg Held.browser put
      | context id => cases congrArg Held.context put

/-- A start that fails holds nothing afterwards when its first failure is the engine's. Otherwise it
holds what it held before and what it has been given. -/
theorem start_error {storageState : Option String} {after : Held} {trace : List Exchange}
    {failure : Failure}
    (run : (start config storageState).Runs held trace (.error failure) after) :
    ∃ front call raw back, trace = front ++ ⟨.browser call, .error raw⟩ :: back ∧
      (∀ exchange ∈ front, exchange.failure? = none) ∧
      (after = {} ↔ raw.isBrowser = true ∨ held = {} ∧ obtained trace = []) := by
  obtain ⟨calls, result, middle, others, rfl, tried, ends⟩ := start_runs run
  cases result with
  | ok => cases ends.1
  | error raw =>
      obtain ⟨front, call, rfl, well⟩ := tried.split_of_error
      refine ⟨front, call, raw, others, by rw [List.append_assoc, List.singleton_append], well, ?_⟩
      dsimp only at ends
      split at ends
      · rename_i engine
        obtain ⟨⟨_, stopped⟩, -⟩ := ends
        exact iff_of_true (stop_runs stopped).1 (.inl engine)
      · rename_i foreign
        obtain ⟨rfl, -, rfl⟩ := ends
        rw [tried.after_eq, List.append_nil]
        constructor
        · intro empty
          exact .inr (foldl_put_eq_empty empty)
        · rintro (engine | ⟨rfl, nothing⟩)
          · exact absurd engine foreign
          · rw [nothing]
            rfl

/-- However often a layer is started and stopped, and whatever the engine replies: the layer never
holds more than it has been given and has not asked to close; nothing is lost exactly when no start
takes an engine while one is held and every context and browser can be closed, and then all that it
has been given is held or has been asked to close; and a start that fails leaves nothing held
exactly when its first failure was the engine's, or when nothing was held and nothing was given. -/
theorem Lives.nothing_lost_iff (lives : Lives config episodes held) :
    (∀ resource, held.resources.count resource + (released (tracesOf episodes)).count resource ≤
      (obtained (tracesOf episodes)).count resource) ∧
    ((∀ resource, (obtained (tracesOf episodes)).count resource =
        held.resources.count resource + (released (tracesOf episodes)).count resource) ↔
      ∀ episode ∈ episodes, Orderly episode.before episode.trace) ∧
    ((∀ episode ∈ episodes, Orderly episode.before episode.trace) →
      ∀ resource ∈ obtained (tracesOf episodes),
        resource ∈ held.resources ∨ resource ∈ released (tracesOf episodes)) ∧
    ∀ episode ∈ episodes, ∀ storageState failure, episode.call = .start storageState →
      episode.outcome = .error failure →
      ∃ front call raw back, episode.trace = front ++ ⟨.browser call, .error raw⟩ :: back ∧
        (∀ exchange ∈ front, exchange.failure? = none) ∧
        (episode.after = {} ↔
          raw.isBrowser = true ∨ episode.before = {} ∧ obtained episode.trace = []) := by
  obtain ⟨-, lost, accounts, complete⟩ := lives.accounts
  have balance (resource : Resource) : (obtained (tracesOf episodes)).count resource =
      held.resources.count resource + (released (tracesOf episodes)).count resource +
        lost.count resource := by
    rw [← accounts resource]
    exact (Nat.zero_add _).symm
  refine ⟨fun resource => ?_, ?_, fun orderly resource given => ?_, ?_⟩
  · rw [balance]
    exact Nat.le_add_right _ _
  · rw [← complete]
    constructor
    · intro even
      refine List.eq_nil_iff_forall_not_mem.mpr fun resource member => ?_
      have more := List.count_pos_iff.mpr member
      have same := (balance resource).symm.trans (even resource)
      omega
    · rintro rfl resource
      exact balance resource
  · have many := List.count_pos_iff.mpr given
    rw [balance, complete.mpr orderly, List.count_nil, Nat.add_zero] at many
    by_cases kept : resource ∈ held.resources
    · exact .inl kept
    · rw [List.count_eq_zero_of_not_mem kept, Nat.zero_add] at many
      exact .inr (List.count_pos_iff.mp many)
  · clear accounts complete balance
    induction lives with
    | new => exact fun _ member => absurd member List.not_mem_nil
    | call _ call run ih =>
        refine List.forall_mem_append.mpr ⟨ih, List.forall_mem_singleton.mpr ?_⟩
        rintro storageState failure rfl rfl
        exact start_error run

/-- The context cannot be closed: the browser and the engine are lost. -/
theorem Lives.nothing_lost_iff_jammed :
    ∃ episodes, Lives {} episodes {} ∧
      obtained (tracesOf episodes) = [.engine 1, .browser 2, .context 3] ∧
      released (tracesOf episodes) = [.context 3] ∧
      ¬ ∀ episode ∈ episodes, Orderly episode.before episode.trace := by
  let closed : Failure := .raise .browser "closed"
  have started : ((LayerCall.start none).operation {}).Runs {}
      [⟨.browser .startEngine, .ok (.int 1)⟩,
        ⟨.browser (.launch (launchOptions {})), .ok (.int 2)⟩,
        ⟨.browser (.newContext (contextOptions {} none)), .ok (.int 3)⟩,
        ⟨.browser (.setDefaultTimeout 30000), .ok .null⟩,
        ⟨.log (.info logger "Browser started" [("headless", .bool true)]), ()⟩]
      (.ok ()) { engine := some 1, browser := some 2, context := some 3 } :=
    .ask _ (.ask _ (.ask _ (.ask _ (.ask _ (.done _)))))
  have stopped : (LayerCall.stop.operation {}).Runs
      { engine := some 1, browser := some 2, context := some 3 }
      [⟨.browser (.closeContext 3), .error closed⟩,
        ⟨.log (structuredError logger .browserCleanupFailed closed.message true .null
          (.text "stop")), ()⟩]
      (.ok ()) {} :=
    .ask _ (.ask _ (.done _))
  have lives := (Lives.new.call (.start none) started).call .stop stopped
  refine ⟨_, lives, rfl, rfl, fun orderly => ?_⟩
  have even := (lives.nothing_lost_iff.2.1.mpr orderly) (.browser 2)
  exact absurd even (by decide)

end Lives

end Browser

end WebHarvest
