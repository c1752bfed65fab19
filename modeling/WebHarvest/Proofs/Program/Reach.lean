import WebHarvest.Proofs.Program.Scene
import WebHarvest.Proofs.Program.Trace

/-!
# Programs on their way

A program that is still under way has come to what is left of it through the exchanges so far. What
a log says about the exchanges of one of its programs is such a way, at any moment.
-/

set_option autoImplicit false

namespace WebHarvest

namespace Program

variable {α β : Type}

/-- After the exchanges of the trace, the second program is what is left of the first. -/
inductive Reaches : Program α → List Exchange → Program α → Prop where
  | refl (program : Program α) : Reaches program [] program
  | ask {request : Request} {next : request.Reply → Program α} {trace : List Exchange}
      {rest : Program α} (reply : request.Reply) (goesOn : Reaches (next reply) trace rest) :
      Reaches (.ask request next) (⟨request, reply⟩ :: trace) rest

theorem Reaches.trans {first middle last : Program α} {before after : List Exchange}
    (reaches : first.Reaches before middle) (goesOn : middle.Reaches after last) :
    first.Reaches (before ++ after) last := by
  induction reaches with
  | refl => exact goesOn
  | ask reply _ ih => exact .ask reply (ih goesOn)

theorem Reaches.snoc {program : Program α} {trace : List Exchange} {request : Request}
    {next : request.Reply → Program α} (reaches : program.Reaches trace (.ask request next))
    (reply : request.Reply) : program.Reaches (trace ++ [⟨request, reply⟩]) (next reply) :=
  reaches.trans (.ask reply (.refl _))

theorem reaches_done {program : Program α} {trace : List Exchange} {result : α} :
    program.Reaches trace (.done result) ↔ program.Runs trace result := by
  constructor
  · intro reaches
    generalize isDone : done result = rest at reaches
    induction reaches with
    | refl =>
        subst isDone
        exact .done result
    | ask reply _ ih => exact .ask reply (ih isDone)
  · intro run
    induction run with
    | done result => exact .refl _
    | ask reply _ ih => exact .ask reply ih

/-- Whatever the replies, all requests of the program are of a kind. -/
inductive Asks (allowed : Request → Prop) : Program α → Prop where
  | done (result : α) : Asks allowed (.done result)
  | ask {request : Request} {next : request.Reply → Program α} (own : allowed request)
      (rest : ∀ reply, Asks allowed (next reply)) : Asks allowed (.ask request next)

namespace Asks

variable {allowed wider : Request → Prop} {program : Program α}

theorem mono (asks : program.Asks allowed) (widens : ∀ request, allowed request → wider request) :
    program.Asks wider := by
  induction asks with
  | done result => exact .done result
  | ask own _ ih => exact .ask (widens _ own) ih

theorem bind {next : α → Program β} (asks : program.Asks allowed)
    (rest : ∀ result, (next result).Asks allowed) : (program.bind next).Asks allowed := by
  induction asks with
  | done result => exact rest result
  | ask own _ ih => exact .ask own ih

theorem request {r : Request} (own : allowed r) : (Program.request r).Asks allowed :=
  .ask own fun _ => .done _

theorem reaches_mem {trace : List Exchange} {rest : Program α} (asks : program.Asks allowed)
    (reaches : program.Reaches trace rest) : ∀ exchange ∈ trace, allowed exchange.request := by
  induction reaches with
  | refl => exact fun _ member => absurd member List.not_mem_nil
  | ask reply _ ih =>
      cases asks with
      | ask own rest => exact List.forall_mem_cons.mpr ⟨own, ih (rest reply)⟩

theorem request_mem {trace : List Exchange} {result : α} (asks : program.Asks allowed)
    (run : program.Runs trace result) : ∀ exchange ∈ trace, allowed exchange.request :=
  asks.reaches_mem (reaches_done.mpr run)

end Asks

end Program

namespace Action

variable {α β : Type} {allowed : Request → Prop}

/-- Whatever the replies, all requests of the action are of a kind. -/
def Asks (allowed : Request → Prop) (action : Action α) : Prop := action.run.Asks allowed

theorem asks_pure (result : α) : Asks allowed (pure result : Action α) := Program.Asks.done _

theorem asks_throw (failure : Failure) : Asks allowed (throw failure : Action α) :=
  Program.Asks.done _

theorem asks_settle (outcome : Except Failure α) : Asks allowed (settle outcome) :=
  Program.Asks.done _

theorem asks_query {r : Request} (own : allowed r) : Asks allowed (query r) :=
  Program.Asks.ask own fun _ => .done _

theorem asks_log {record : LogRecord} (own : allowed (.log record)) : Asks allowed (log record) :=
  asks_query own

theorem asks_emit {kind : SignalKind} {payload : List (Value × Value)}
    (own : allowed (.emit kind payload)) : Asks allowed (emit kind payload) := .request own

theorem asks_pause {millis : Int} (own : allowed (.pause millis)) : Asks allowed (pause millis) :=
  .request own

theorem asks_observe {failure : Failure} {details : List (Value × Value)}
    (own : allowed (.observe failure details)) : Asks allowed (observe failure details) :=
  .request own

theorem asks_takeSlot {scope : RateLimit.Scope} {target : String}
    (own : allowed (.takeSlot scope target)) : Asks allowed (takeSlot scope target) := .request own

theorem asks_browser {call : Browser.Call} (own : allowed (.browser call)) :
    Asks allowed (browser call) := .request own

theorem asks_makeParents {path : String} (own : allowed (.makeParents path)) :
    Asks allowed (makeParents path) := .request own

theorem asks_progress {completed total : Nat} (own : allowed (.progress completed total)) :
    Asks allowed (progress completed total) := .request own

theorem asks_bind {action : Action α} {next : α → Action β} (asks : action.Asks allowed)
    (rest : ∀ result, (next result).Asks allowed) : Asks allowed (action >>= next) := by
  refine Program.Asks.bind asks fun outcome => ?_
  cases outcome with
  | ok result => exact rest result
  | error failure => exact .done _

theorem asks_attempt {action : Action α} (asks : action.Asks allowed) :
    Asks allowed action.attempt :=
  Program.Asks.bind asks fun _ => .done _

theorem asks_recover {action : Action α} {handles : Failure → Bool}
    {handler : Failure → Action α} (asks : action.Asks allowed)
    (rest : ∀ failure, (handler failure).Asks allowed) :
    Asks allowed (action.recover handles handler) := by
  refine asks_bind (asks_attempt asks) fun outcome => ?_
  cases outcome with
  | ok result => exact asks_pure result
  | error failure =>
      show Asks allowed (if handles failure then handler failure else throw failure)
      split
      · exact rest failure
      · exact asks_throw failure

theorem asks_ensuring {action : Action α} {cleanup : Action Unit} (asks : action.Asks allowed)
    (cleans : cleanup.Asks allowed) : Asks allowed (action.ensuring cleanup) :=
  asks_bind (asks_attempt asks) fun outcome => asks_bind cleans fun _ => asks_settle outcome

theorem asks_forM {items : List β} {each : β → Action Unit}
    (asks : ∀ item ∈ items, (each item).Asks allowed) : Asks allowed (items.forM each) := by
  induction items with
  | nil => exact asks_pure ()
  | cons item rest ih =>
      rw [List.forall_mem_cons] at asks
      exact asks_bind asks.1 fun _ => ih asks.2

theorem asks_if {condition : Prop} [Decidable condition] {first second : Action α}
    (asks : first.Asks allowed) (others : second.Asks allowed) :
    Asks allowed (if condition then first else second) := by
  split
  · exact asks
  · exact others

end Action

/-- The failure of an exchange that has failed. -/
def Exchange.failure? (exchange : Exchange) : Option Failure :=
  match exchange with
  | ⟨.pause _, .error failure⟩ => some failure
  | ⟨.emit .., .error failure⟩ => some failure
  | ⟨.takeSlot .., .error failure⟩ => some failure
  | ⟨.observe .., .error failure⟩ => some failure
  | ⟨.progress .., .error failure⟩ => some failure
  | ⟨.perform _, .error failure⟩ => some failure
  | ⟨.browser _, .error failure⟩ => some failure
  | ⟨.makeParents _, .error failure⟩ => some failure
  | ⟨.writeFile .., .error failure⟩ => some failure
  | ⟨.readFile _, .error failure⟩ => some failure
  | ⟨.saveSession .., .error failure⟩ => some failure
  | ⟨.loadSession _, .error failure⟩ => some failure
  | ⟨.sessionPath _, .error failure⟩ => some failure
  | _ => none

/-- The exchange that the entry shows the end of. -/
def Entry.exchange? (entry : Entry) : Option Exchange :=
  match entry.deed with
  | .hears request reply => some ⟨request, reply⟩
  | _ => none

/-- The exchanges that have come to their end in a log, in the order of the replies. -/
def heard (log : List Entry) : List Exchange := log.filterMap Entry.exchange?

/-- The exchanges of one program in a log. -/
def heardBy (task : Nat) (log : List Entry) : List Exchange :=
  heard (log.filter (·.task == task))

/-- The log shows the end of the program with this number. -/
def HasEnded (task : Nat) (log : List Entry) : Prop := ∃ time, ⟨time, task, .ends⟩ ∈ log

section Hearing

variable {log more : List Entry} {task : Nat}

@[simp] theorem heard_append : heard (log ++ more) = heard log ++ heard more :=
  List.filterMap_append

@[simp] theorem heardBy_nil : heardBy task [] = [] := rfl

@[simp] theorem heardBy_append :
    heardBy task (log ++ more) = heardBy task log ++ heardBy task more := by
  simp only [heardBy, List.filter_append, heard_append]

theorem heardBy_of_ne (apart : ∀ entry ∈ log, entry.task ≠ task) : heardBy task log = [] := by
  have nothing : log.filter (·.task == task) = [] :=
    List.filter_eq_nil_iff.mpr fun entry member => by simpa using apart entry member
  rw [heardBy, nothing, heard, List.filterMap_nil]

theorem heardBy_self (own : ∀ entry ∈ log, entry.task = task) : heardBy task log = heard log := by
  rw [heardBy, List.filter_eq_self.mpr fun entry member => by simpa using own entry member]

end Hearing

end WebHarvest
