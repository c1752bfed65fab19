import WebHarvest.Proofs.Harvester.Requests
import WebHarvest.Proofs.Program.Within

/-!
# Keeping pages in order

A program keeps its pages in order when it opens one only while it holds none, calls no other page
than the one it holds, and ends only when it has closed it, whatever the engine replies. Every call
on a page is then made between its opening and its closing, at any point of a run.
-/

set_option autoImplicit false

namespace WebHarvest

open Browser (PageId numberOf)

namespace Exchange

/-- The page that a call has opened. -/
def opened? : Exchange → Option PageId
  | ⟨.browser .newPage, .ok page⟩ => some (numberOf page)
  | _ => none

/-- The page that a call closes. An engine that raises in reply has been told so all the same. -/
def closed? : Exchange → Option PageId
  | ⟨.browser (.closePage page), _⟩ => some page
  | _ => none

/-- The page that a call is made on. -/
def page? : Exchange → Option PageId
  | ⟨.browser call, _⟩ => call.page?
  | _ => none

end Exchange

def pagesOpened (trace : List Exchange) : List PageId := trace.filterMap Exchange.opened?

def pagesClosed (trace : List Exchange) : List PageId := trace.filterMap Exchange.closed?

/-- Every call on a page is made when the page has been opened and has not been closed yet. -/
def CallsWhileOpen (trace : List Exchange) : Prop :=
  ∀ before exchange after page, trace = before ++ exchange :: after → exchange.page? = some page →
    page ∈ pagesOpened before ∧ page ∉ pagesClosed before

/-- The page has been closed once, and that was the last call on it. -/
def ClosedLast (page : PageId) (trace : List Exchange) : Prop :=
  ∃ before reply after, trace = before ++ ⟨.browser (.closePage page), reply⟩ :: after ∧
    page ∉ pagesClosed before ∧ ∀ exchange ∈ after, exchange.page? ≠ some page

@[simp] theorem pagesOpened_nil : pagesOpened [] = [] := rfl

@[simp] theorem pagesClosed_nil : pagesClosed [] = [] := rfl

section Traces

variable {trace more : List Exchange} {exchange : Exchange}

@[simp] theorem pagesOpened_append :
    pagesOpened (trace ++ more) = pagesOpened trace ++ pagesOpened more := List.filterMap_append

@[simp] theorem pagesClosed_append :
    pagesClosed (trace ++ more) = pagesClosed trace ++ pagesClosed more := List.filterMap_append

theorem pagesOpened_cons :
    pagesOpened (exchange :: trace) = exchange.opened?.toList ++ pagesOpened trace := by
  unfold pagesOpened
  cases found : exchange.opened? with
  | none => rw [List.filterMap_cons_none found, Option.toList_none, List.nil_append]
  | some page => rw [List.filterMap_cons_some found, Option.toList_some, List.singleton_append]

theorem pagesClosed_cons :
    pagesClosed (exchange :: trace) = exchange.closed?.toList ++ pagesClosed trace := by
  unfold pagesClosed
  cases found : exchange.closed? with
  | none => rw [List.filterMap_cons_none found, Option.toList_none, List.nil_append]
  | some page => rw [List.filterMap_cons_some found, Option.toList_some, List.singleton_append]

/-- A page that is called only while it is open is closed by the last call on it. -/
theorem CallsWhileOpen.closedLast {page : PageId} (used : CallsWhileOpen trace)
    (closed : page ∈ pagesClosed trace) : ClosedLast page trace := by
  obtain ⟨⟨request, reply⟩, member, closes⟩ := List.mem_filterMap.mp closed
  obtain ⟨before, after, rfl⟩ := List.append_of_mem member
  obtain ⟨other, rfl⟩ : ∃ other, request = .browser (.closePage other) := by
    cases request with
    | browser call =>
        cases call with
        | closePage other => exact ⟨other, rfl⟩
        | _ => cases closes
    | _ => cases closes
  obtain rfl := Option.some.inj closes
  refine ⟨before, reply, after, rfl, (used before _ after _ rfl rfl).2, ?_⟩
  intro later isLater isCall
  obtain ⟨between, rest, rfl⟩ := List.append_of_mem isLater
  refine (used (before ++ ⟨.browser (.closePage _), reply⟩ :: between) later rest _ ?_ isCall).2 ?_
  · rw [List.append_assoc, List.cons_append]
  · rw [pagesClosed_append, pagesClosed_cons]
    exact List.mem_append_right _ List.mem_cons_self

end Traces

/-- The request leaves the page that is held as it is, and calls no other one. -/
def Request.Keeps (held : Option PageId) (request : Request) : Prop :=
  request.IsApart ∨ ∃ page, held = some page ∧ request.OnPage page

/-- Whatever the replies, the program opens a page only when it holds none, calls no other page than
the one it holds, and holds none when it ends. -/
inductive Program.Tidy {α : Type} : Option PageId → Program α → Prop where
  | done (result : α) : Tidy none (.done result)
  | opens {next : Except Failure Value → Program α}
      (opened : ∀ page, Tidy (some (numberOf page)) (next (.ok page)))
      (failed : ∀ failure, Tidy none (next (.error failure))) :
      Tidy none (.ask (.browser .newPage) next)
  | closes {page : PageId} {next : Except Failure Value → Program α}
      (rest : ∀ reply, Tidy none (next reply)) :
      Tidy (some page) (.ask (.browser (.closePage page)) next)
  | asks {held : Option PageId} {request : Request} {next : request.Reply → Program α}
      (own : request.Keeps held) (rest : ∀ reply, Tidy held (next reply)) :
      Tidy held (.ask request next)

/-- What a trace does with pages, from the page that is held before to the one held after. -/
inductive Handles : Option PageId → List Exchange → Option PageId → Prop where
  | nil (held : Option PageId) : Handles held [] held
  | opens {page : Value} {trace : List Exchange} {after : Option PageId}
      (rest : Handles (some (numberOf page)) trace after) :
      Handles none (⟨.browser .newPage, .ok page⟩ :: trace) after
  | closes {page : PageId} {reply : Except Failure Value} {trace : List Exchange}
      {after : Option PageId} (rest : Handles none trace after) :
      Handles (some page) (⟨.browser (.closePage page), reply⟩ :: trace) after
  | keeps {held after : Option PageId} {exchange : Exchange} {trace : List Exchange}
      (unopened : exchange.opened? = none) (unclosed : exchange.closed? = none)
      (own : ∀ page, exchange.page? = some page → held = some page)
      (rest : Handles held trace after) : Handles held (exchange :: trace) after

namespace Handles

variable {held middle after other : Option PageId} {trace more : List Exchange}

theorem split (handles : Handles held (trace ++ more) after) :
    ∃ middle, Handles held trace middle ∧ Handles middle more after := by
  induction trace generalizing held with
  | nil => exact ⟨held, .nil held, handles⟩
  | cons exchange trace ih =>
      cases handles with
      | opens rest =>
          obtain ⟨middle, first, second⟩ := ih rest
          exact ⟨middle, .opens first, second⟩
      | closes rest =>
          obtain ⟨middle, first, second⟩ := ih rest
          exact ⟨middle, .closes first, second⟩
      | keeps unopened unclosed own rest =>
          obtain ⟨middle, first, second⟩ := ih rest
          exact ⟨middle, .keeps unopened unclosed own first, second⟩

/-- What was held and what has been opened has been closed or is held. -/
theorem balance (handles : Handles held trace after) :
    held.toList ++ pagesOpened trace = pagesClosed trace ++ after.toList := by
  induction handles with
  | nil held => simp only [pagesOpened_nil, pagesClosed_nil, List.append_nil, List.nil_append]
  | opens rest ih => rw [pagesOpened_cons, pagesClosed_cons]; exact ih
  | closes rest ih =>
      rw [pagesOpened_cons, pagesClosed_cons, List.append_assoc, ← ih]
      rfl
  | keeps unopened unclosed own rest ih =>
      rw [pagesOpened_cons, pagesClosed_cons, unopened, unclosed]
      exact ih

theorem unique (one : Handles held trace after) (another : Handles held trace other) :
    after = other := by
  have same := List.append_cancel_left (one.balance.symm.trans another.balance)
  cases after with
  | none => exact (Option.toList_eq_nil_iff.mp same.symm).symm
  | some page => exact (Option.toList_eq_singleton_iff.mp same.symm).symm

theorem holds {exchange : Exchange} {page : PageId}
    (handles : Handles held (exchange :: trace) after) (isCall : exchange.page? = some page) :
    held = some page := by
  cases handles with
  | opens => cases isCall
  | closes => exact isCall
  | keeps _ _ own => exact own page isCall

end Handles

/-- A program that keeps its pages in order calls each page only while it is open, if the engine
gives every page a number of its own. -/
theorem Handles.callsWhileOpen {trace : List Exchange} {after : Option PageId}
    (handles : Handles none trace after) (distinct : (pagesOpened trace).Nodup) :
    CallsWhileOpen trace := by
  rintro before exchange rest page rfl isCall
  obtain ⟨middle, first, last⟩ := handles.split
  obtain rfl := last.holds isCall
  have opened : pagesOpened before = pagesClosed before ++ [page] := first.balance
  rw [pagesOpened_append, opened] at distinct
  refine ⟨opened ▸ List.mem_append_right _ List.mem_cons_self, fun closed => ?_⟩
  exact (List.nodup_append.mp (List.nodup_append.mp distinct).1).2.2 page closed page
    List.mem_cons_self rfl

theorem Request.Keeps.exchange {held : Option PageId} {request : Request}
    (keeps : request.Keeps held) (reply : request.Reply) :
    Exchange.opened? ⟨request, reply⟩ = none ∧ Exchange.closed? ⟨request, reply⟩ = none ∧
      ∀ page, Exchange.page? ⟨request, reply⟩ = some page → held = some page := by
  obtain apart | ⟨page, rfl, own⟩ := keeps
  · cases request with
    | browser call => exact absurd rfl (apart call)
    | _ => exact ⟨rfl, rfl, by rintro _ ⟨⟩⟩
  · cases request with
    | browser call =>
        cases call with
        | newPage => cases own.1
        | closePage other =>
            cases own.1
            exact absurd rfl own.2
        | _ => exact ⟨rfl, rfl, fun _ isCall => own.1.symm.trans isCall⟩
    | log | makeParents => exact ⟨rfl, rfl, by rintro _ ⟨⟩⟩
    | _ => cases own

namespace Program

variable {α β : Type} {held : Option PageId} {program : Program α}

namespace Tidy

theorem handles {trace : List Exchange} {rest : Program α} (tidy : program.Tidy held)
    (reaches : program.Reaches trace rest) :
    ∃ after, rest.Tidy after ∧ Handles held trace after := by
  induction reaches generalizing held with
  | refl => exact ⟨held, tidy, .nil held⟩
  | ask reply _ ih =>
      cases tidy with
      | opens opened failed =>
          cases reply with
          | ok page =>
              obtain ⟨after, left, handles⟩ := ih (opened page)
              exact ⟨after, left, .opens handles⟩
          | error failure =>
              obtain ⟨after, left, handles⟩ := ih (failed failure)
              exact ⟨after, left, .keeps rfl rfl (by rintro _ ⟨⟩) handles⟩
      | closes goesOn =>
          obtain ⟨after, left, handles⟩ := ih (goesOn reply)
          exact ⟨after, left, .closes handles⟩
      | asks own goesOn =>
          obtain ⟨after, left, handles⟩ := ih (goesOn reply)
          obtain ⟨unopened, unclosed, called⟩ := own.exchange reply
          exact ⟨after, left, .keeps unopened unclosed called handles⟩

theorem bind {next : α → Program β} (tidy : program.Tidy held)
    (rest : ∀ result, (next result).Tidy none) : (program.bind next).Tidy held := by
  induction tidy with
  | done result => exact rest result
  | opens _ _ opened failed => exact .opens opened failed
  | closes _ ih => exact .closes ih
  | asks own _ ih => exact .asks own ih

end Tidy

/-- A program that keeps the page that is held leaves it to what comes next. -/
theorem Asks.tidy_bind {next : α → Program β} (asks : program.Asks (Request.Keeps held))
    (rest : ∀ result, (next result).Tidy held) : (program.bind next).Tidy held := by
  induction asks with
  | done result => exact rest result
  | ask own _ ih => exact .asks own ih

theorem Asks.tidy (asks : program.Asks Request.IsApart) : program.Tidy none := by
  induction asks with
  | done result => exact .done result
  | ask own _ ih => exact .asks (Or.inl own) ih

end Program

namespace Action

variable {α β : Type}

/-- The action keeps its pages in order and holds none in the end. -/
def Tidy (action : Action α) : Prop := action.run.Tidy none

theorem tidy_pure (result : α) : Tidy (pure result : Action α) := .done _

theorem tidy_throw (failure : Failure) : Tidy (throw failure : Action α) := .done _

theorem tidy_bind {action : Action α} {next : α → Action β} (tidy : action.Tidy)
    (rest : ∀ result, (next result).Tidy) : Tidy (action >>= next) := by
  refine Program.Tidy.bind tidy fun outcome => ?_
  cases outcome with
  | ok result => exact rest result
  | error failure => exact .done _

theorem tidy_attempt {action : Action α} (tidy : action.Tidy) : Tidy action.attempt :=
  Program.Tidy.bind tidy fun _ => .done _

theorem tidy_of_asks {action : Action α} (asks : action.Asks Request.IsApart) : action.Tidy :=
  Program.Asks.tidy asks

theorem tidy_composes : Composes fun _ action => action.Tidy where
  pure _ := tidy_pure
  throw _ := tidy_throw
  bind _ _ _ _ := tidy_bind
  attempt _ _ := tidy_attempt

end Action

namespace Browser.Layer

variable {α : Type} {layer : Layer} {body : PageId → Action α}

/-- The page is closed however its use ends, and nothing is done to it afterwards. -/
theorem withPage_tidy (asks : ∀ page, (body page).Asks (Request.OnPage page)) :
    (layer.withPage body).Tidy := by
  unfold withPage openPage requireContext
  split
  · refine Program.Tidy.opens (fun page => ?_) fun failure => .done _
    show Program.Tidy (some (numberOf page)) (((body (numberOf page)).ensuring
      (Action.browser (.closePage (numberOf page)) >>= fun _ => pure ())).run)
    unfold Action.ensuring
    rw [Action.run_attempt_bind]
    refine Program.Asks.tidy_bind ((asks _).mono fun _ own => Or.inr ⟨_, rfl, own⟩) ?_
    refine fun outcome => .closes fun reply => ?_
    cases reply with
    | ok | error => exact .done _
  · exact .done _

end Browser.Layer

end WebHarvest
