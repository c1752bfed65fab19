import Mathlib.Data.List.Basic
import WebHarvest.Proofs.Program.OnFiles

/-!
# Calls by a script

Some actions make calls in an order that is fixed beforehand: each call of a script is made once the
one before it has succeeded. Such an action makes a first part of the script, and the whole of it
when nothing fails.
-/

set_option autoImplicit false

namespace WebHarvest

namespace Browser

/-- Why no more calls of a script are made. -/
inductive Halt where
  /-- All of them have been made. -/
  | finished
  /-- The last call has failed. -/
  | failed
  /-- Something else has failed in between. -/
  | refused
  deriving DecidableEq

/-- What a halt becomes when more calls would have been to make. -/
def Halt.cut : Halt → Halt
  | .finished => .refused
  | halt => halt

/-- Calls are made in the order of a script, as long as they succeed. -/
inductive Follows : List Call → List Exchange → Halt → Prop where
  | finished : Follows [] [] .finished
  | refused {script : List Call} : Follows script [] .refused
  | failed {call : Call} {script : List Call} {failure : Failure} :
      Follows (call :: script) [(call, .error failure)] .failed
  | goesOn {call : Call} {script : List Call} {value : Value} {calls : List Exchange} {halt : Halt}
      (rest : Follows script calls halt) :
      Follows (call :: script) ((call, .ok value) :: calls) halt

namespace Follows

variable {script further : List Call} {calls more : List Exchange} {halt : Halt}

theorem single {call : Call} {reply : Except Failure Value} :
    Follows [call] [(call, reply)] (if reply.isOk then .finished else .failed) := by
  cases reply with
  | ok value => exact .goesOn .finished
  | error failure => exact .failed

theorem append (follows : Follows script calls .finished) (rest : Follows further more halt) :
    Follows (script ++ further) (calls ++ more) halt := by
  generalize ends : Halt.finished = first at follows
  induction follows with
  | finished => exact rest
  | refused => cases ends
  | failed => cases ends
  | goesOn _ ih => exact .goesOn (ih ends)

/-- Calls by a script are also calls by a longer one. -/
theorem cut (follows : Follows script calls halt) (further : List Call) :
    Follows (script ++ further) calls halt.cut := by
  induction follows with
  | finished | refused => exact .refused
  | failed => exact .failed
  | goesOn _ ih => exact .goesOn ih

theorem isPrefix (follows : Follows script calls halt) : calls.map Prod.fst <+: script := by
  induction follows with
  | finished | refused => exact List.nil_prefix
  | failed => exact (List.prefix_cons_inj _).mpr List.nil_prefix
  | goesOn _ ih => exact (List.prefix_cons_inj _).mpr ih

theorem complete (follows : Follows script calls .finished) : calls.map Prod.fst = script := by
  generalize ends : Halt.finished = halt at follows
  induction follows with
  | finished => rfl
  | refused | failed => cases ends
  | goesOn _ ih => rw [List.map_cons, ih ends]

/-- Whatever has been called before another call has succeeded. -/
theorem succeeds {before after : List Exchange} {exchange : Exchange}
    (follows : Follows script calls halt) (split : calls = before ++ exchange :: after) :
    ∀ earlier ∈ before, ∃ value, earlier.2 = .ok value := by
  induction follows generalizing before with
  | finished | refused => exact absurd split.symm (by simp)
  | failed =>
      cases before with
      | nil => nofun
      | cons first others => exact absurd (List.cons.inj split).2.symm (by simp)
  | @goesOn _ _ value _ _ _ ih =>
      cases before with
      | nil => nofun
      | cons first others =>
          obtain ⟨rfl, rest⟩ := List.cons.inj split
          exact List.forall_mem_cons.mpr ⟨⟨value, rfl⟩, ih rest⟩

/-- No call is made after one that has failed. -/
theorem stops {before after : List Exchange} {call : Call} {failure : Failure}
    (follows : Follows script calls halt)
    (split : calls = before ++ (call, .error failure) :: after) : after = [] ∧ halt = .failed := by
  induction follows generalizing before with
  | finished | refused => exact absurd split.symm (by simp)
  | failed =>
      cases before with
      | nil => exact ⟨(List.cons.inj split).2.symm, rfl⟩
      | cons first others => exact absurd (List.cons.inj split).2.symm (by simp)
  | goesOn _ ih =>
      cases before with
      | nil => cases (List.cons.inj split).1
      | cons first others => exact ih (List.cons.inj split).2

theorem exists_failed (follows : Follows script calls .failed) :
    ∃ call failure, (call, .error failure) ∈ calls := by
  generalize ends : Halt.failed = halt at follows
  induction follows with
  | finished | refused => cases ends
  | @failed call _ failure => exact ⟨call, failure, List.mem_cons_self⟩
  | goesOn _ ih =>
      obtain ⟨call, failure, member⟩ := ih ends
      exact ⟨call, failure, List.mem_cons_of_mem _ member⟩

/-- What comes before a call that the script has once has come before it. -/
theorem before_of_once {front back : List Call} {call : Call} {before after : List Exchange}
    {reply : Except Failure Value} (follows : Follows (front ++ call :: back) calls halt)
    (split : calls = before ++ (call, reply) :: after) (frontOther : call ∉ front)
    (backOther : call ∉ back) : before.map Prod.fst = front := by
  obtain ⟨rest, whole⟩ := follows.isPrefix
  rw [split, List.map_append, List.map_cons, List.append_assoc, List.cons_append] at whole
  exact ((List.append_cons_inj_of_notMem frontOther backOther).mp whole.symm).1.symm

end Follows

end Browser

/-- Requests of whoever works on a page that is open. -/
def Request.isPagework : Request → Bool
  | .browser _ => true
  | .pageUrl _ => true
  | _ => false

namespace Action

open Browser (Call Halt)

variable {α β : Type} {script further : List Call}

/-- How an action ends that does nothing but make calls. -/
def haltOf (outcome : Except Failure α) : Halt := if outcome.isOk then .finished else .failed

/-- The action works on a page, where it makes the calls of the script. It fails when one of them
does, and not otherwise. -/
def Follows (action : Action α) (script : List Call) : Prop :=
  ∀ ⦃trace : List Exchange⦄ ⦃outcome : Except Failure α⦄, action.Runs trace outcome →
    (∀ exchange ∈ trace, exchange.request.isPagework = true) ∧
      Browser.Follows script (trace.filterMap Exchange.browser?) (haltOf outcome)

/-- The action fails without a call. -/
def GivesUp (action : Action α) : Prop :=
  ∀ ⦃trace : List Exchange⦄ ⦃outcome : Except Failure α⦄, action.Runs trace outcome →
    (∀ exchange ∈ trace, exchange.request.isPagework = true) ∧
      trace.filterMap Exchange.browser? = [] ∧ ∃ failure, outcome = .error failure

theorem givesUp_throw (failure : Failure) : (throw failure : Action α).GivesUp := by
  intro trace outcome run
  obtain ⟨rfl, rfl⟩ := runs_throw.mp run
  exact ⟨nofun, rfl, failure, rfl⟩

/-- Asking where the page is makes no call. -/
theorem givesUp_pageUrl {page : Browser.PageId} {next : String → Action α}
    (rest : ∀ url, (next url).GivesUp) : (query (.pageUrl page) >>= next).GivesUp := by
  intro trace outcome run
  rcases runs_bind.mp run with ⟨before, url, after, asked, rest', rfl⟩ | ⟨failure, asked, -⟩
  · obtain ⟨reply, rfl, -⟩ := runs_query.mp asked
    obtain ⟨pagework, silent, failed⟩ := rest url rest'
    exact ⟨List.forall_mem_cons.mpr ⟨rfl, pagework⟩, silent, failed⟩
  · obtain ⟨reply, -, same⟩ := runs_query.mp asked
    cases same

theorem follows_pure (result : α) : (pure result : Action α).Follows [] := by
  intro trace outcome run
  obtain ⟨rfl, rfl⟩ := runs_pure.mp run
  exact ⟨nofun, .finished⟩

theorem follows_browser (call : Call) : (browser call).Follows [call] := by
  intro trace outcome run
  obtain rfl := Program.runs_request.mp run
  exact ⟨List.forall_mem_singleton.mpr rfl, .single⟩

theorem Follows.bind {action : Action α} {next : α → Action β} (follows : action.Follows script)
    (rest : ∀ result, (next result).Follows further) :
    (action >>= next).Follows (script ++ further) := by
  intro trace outcome run
  rcases runs_bind.mp run with ⟨before, result, after, first, second, rfl⟩ | ⟨failure, first, rfl⟩
  · obtain ⟨pagework, calls⟩ := follows first
    obtain ⟨furtherPagework, furtherCalls⟩ := rest result second
    rw [List.filterMap_append]
    exact ⟨List.forall_mem_append.mpr ⟨pagework, furtherPagework⟩, calls.append furtherCalls⟩
  · obtain ⟨pagework, calls⟩ := follows first
    exact ⟨pagework, calls.cut further⟩

/-- A call whose failure is looked at before the action fails. -/
theorem follows_attempt {call : Call} {next : Except Failure Value → Action α}
    (goesOn : ∀ value, (next (.ok value)).Follows script)
    (givesUp : ∀ failure, (next (.error failure)).GivesUp) :
    ((browser call).attempt >>= next).Follows (call :: script) := by
  intro trace outcome run
  rcases runs_bind.mp run with ⟨before, reply, after, tried, rest, rfl⟩ | ⟨failure, tried, -⟩
  · obtain ⟨_, asked, same⟩ := runs_attempt.mp tried
    cases same
    obtain rfl := Program.runs_request.mp asked
    cases reply with
    | ok value =>
        obtain ⟨pagework, calls⟩ := goesOn value rest
        exact ⟨List.forall_mem_cons.mpr ⟨rfl, pagework⟩, .goesOn calls⟩
    | error failure =>
        obtain ⟨pagework, silent, fault, rfl⟩ := givesUp failure rest
        refine ⟨List.forall_mem_cons.mpr ⟨rfl, pagework⟩, ?_⟩
        rw [List.filterMap_append, silent]
        exact .failed
  · obtain ⟨_, -, same⟩ := runs_attempt.mp tried
    cases same

end Action

end WebHarvest
