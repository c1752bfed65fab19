import WebHarvest.Proofs.Program.Script
import WebHarvest.Proofs.Session.Cookies
import WebHarvest.Proofs.Session.Login
import WebHarvest.Proofs.Session.Saved

/-!
# Programs served by a desk

A program that works on a page may also write files, save sessions and log. The page replies to its
calls as it likes; everything else is done at a desk, which is told what the program does to files
and sessions.
-/

set_option autoImplicit false

namespace WebHarvest.Session

open Browser (Call Halt)

/-- What is done at a desk for a request, the reply to it, and the desk afterwards. Calls to a
browser are none of its business. -/
def Desk.Serves (desk after : Desk) : (request : Request) → request.Reply → Prop
  | .browser _, _ => after = desk
  | .pageUrl _, _ => after = desk
  | .log record, _ => after = { desk with log := desk.log ++ [record] }
  | .writeFile path text, reply => (change (·.write path text)).perform desk = (reply, after)
  | .saveSession id state, reply => (save id state).perform desk = (reply, after)
  | .sessionPath id, reply => (pathOf id).perform desk = (reply, after)
  | _, _ => False

inductive Desk.ServesAll : Desk → List Exchange → Desk → Prop where
  | nil {desk : Desk} : ServesAll desk [] desk
  | cons {desk middle after : Desk} {exchange : Exchange} {trace : List Exchange}
      (head : desk.Serves middle exchange.request exchange.reply)
      (tail : ServesAll middle trace after) : ServesAll desk (exchange :: trace) after

section Service

variable {α β : Type} {desk after : Desk} {trace before later : List Exchange}

theorem Desk.servesAll_append :
    desk.ServesAll (before ++ later) after ↔
      ∃ middle, desk.ServesAll before middle ∧ Desk.ServesAll middle later after := by
  induction before generalizing desk with
  | nil =>
      constructor
      · intro served
        exact ⟨desk, .nil, served⟩
      · rintro ⟨middle, first, rest⟩
        cases first
        exact rest
  | cons exchange trace ih =>
      constructor
      · rintro (_ | ⟨head, tail⟩)
        obtain ⟨middle, first, rest⟩ := ih.mp tail
        exact ⟨middle, .cons head first, rest⟩
      · rintro ⟨middle, first, rest⟩
        cases first with
        | cons head tail => exact .cons head (ih.mpr ⟨middle, tail, rest⟩)

theorem Desk.servesAll_single {exchange : Exchange} :
    desk.ServesAll [exchange] after ↔ desk.Serves after exchange.request exchange.reply := by
  constructor
  · rintro (_ | ⟨head, ⟨⟩⟩)
    exact head
  · intro served
    exact .cons served .nil

theorem Desk.serves_log {record : LogRecord} {reply : Request.Reply (.log record)} :
    desk.Serves after (.log record) reply ↔ after = { desk with log := desk.log ++ [record] } :=
  Iff.rfl

/-- Work on a page leaves the desk alone. -/
theorem Desk.ServesAll.of_pagework (served : desk.ServesAll trace after)
    (pagework : ∀ exchange ∈ trace, exchange.request.isPagework = true) : after = desk := by
  induction served with
  | nil => rfl
  | @cons desk middle after exchange trace head _ ih =>
      obtain ⟨first, others⟩ := List.forall_mem_cons.mp pagework
      obtain ⟨request, reply⟩ := exchange
      have same : middle = desk := by
        cases request with
        | browser | pageUrl => exact head
        | _ => cases first
      rw [ih others, same]

/-- At every desk and on every page, a program that asks for nothing else is served to its end. -/
theorem exists_served {program : Program α} (asks : program.Asks (·.isDeskwork = true))
    (page : Call → Except Failure Value) (desk : Desk) :
    ∃ trace result after, program.Runs trace result ∧ desk.ServesAll trace after ∧
      ∀ call ∈ trace.filterMap Exchange.browser?, call.2 = page call.1 := by
  induction asks generalizing desk with
  | done result => exact ⟨[], result, desk, .done result, .nil, nofun⟩
  | @ask request next own _ ih =>
      have goesOn (reply : request.Reply) (middle : Desk) (serves : desk.Serves middle request reply)
          (replies : ∀ call, Exchange.browser? ⟨request, reply⟩ = some call →
            call.2 = page call.1) :
          ∃ trace result after, (Program.ask request next).Runs trace result ∧
            desk.ServesAll trace after ∧
              ∀ call ∈ trace.filterMap Exchange.browser?, call.2 = page call.1 := by
        obtain ⟨trace, result, after, run, served, replied⟩ := ih reply middle
        refine ⟨⟨request, reply⟩ :: trace, result, after, .ask reply run, .cons serves served, ?_⟩
        intro call member
        obtain ⟨exchange, known, same⟩ := List.mem_filterMap.mp member
        rcases List.mem_cons.mp known with rfl | known
        · exact replies call same
        · exact replied call (List.mem_filterMap.mpr ⟨exchange, known, same⟩)
      cases request with
      | browser call =>
          refine goesOn (page call) desk rfl ?_
          rintro _ ⟨⟩
          rfl
      | pageUrl => exact goesOn "" desk rfl nofun
      | log record => exact goesOn () { desk with log := desk.log ++ [record] } rfl nofun
      | writeFile path text => exact goesOn _ ((change (·.write path text)).perform desk).2 rfl nofun
      | saveSession id state => exact goesOn _ ((save id state).perform desk).2 rfl nofun
      | sessionPath id => exact goesOn _ ((pathOf id).perform desk).2 rfl nofun
      | _ => cases own

/-- A simulated world serves as the desk does at which its files and its store are. -/
theorem host_serves {τ : Type} [TimeScale τ] (world : Simulation.World τ) (now : Int)
    {request : Request} (own : request.isDeskwork = true)
    (noCall : ∀ call, request ≠ .browser call) :
    ∃ reply next log, Simulation.World.host.answer request now world = (next, .now reply) ∧
      Desk.Serves ⟨world.store, world.files, []⟩ ⟨next.store, next.files, log⟩ request reply := by
  cases request with
  | browser call => exact absurd rfl (noCall call)
  | pageUrl page => exact ⟨_, _, [], rfl, rfl⟩
  | log record => exact ⟨(), _, [record], rfl, rfl⟩
  | writeFile path text =>
      cases wrote : world.files.write path text with
      | ok files =>
          exact ⟨.ok (), _, [], Simulation.World.host_writeFile_of_ok wrote now, perform_change wrote⟩
      | error failure =>
          exact ⟨.error failure, _, [], Simulation.World.host_writeFile_of_error wrote now,
            perform_change_error wrote⟩
  | saveSession id state => exact ⟨_, _, _, rfl, rfl⟩
  | sessionPath id => exact ⟨_, _, _, rfl, rfl⟩
  | _ => cases own

end Service

end WebHarvest.Session
