import WebHarvest.Proofs.Simulation.Service
import WebHarvest.Signal.Delivery

/-!
# A world with an audience

Here a signal is delivered before its emission is over, to subscribers that may do anything:
subscribe others, emit signals of their own, and fail. Programs notice nothing of it.
-/

set_option autoImplicit false

namespace WebHarvest

theorem Emitter.publish_ledger {σ : Type} (emitter : Emitter σ) (files : FileTree)
    (now : Timestamp) (kind : SignalKind) (payload : Value) :
    (emitter.publish files now kind payload).1.1.ledger = emitter.ledger := by
  unfold publish
  cases emitter.signalOf now kind payload with
  | error failure => rfl
  | ok signal => rfl

namespace Signal.Traffic

variable {σ : Type} {traffic : Traffic σ}

theorem emit_ledger (traffic : Traffic σ) (now : Timestamp) (kind : SignalKind) (payload : Value) :
    (traffic.emit now kind payload).1.emitter.ledger = traffic.emitter.ledger := by
  have kept := traffic.emitter.publish_ledger traffic.files now kind payload
  unfold emit
  rcases published : traffic.emitter.publish traffic.files now kind payload with
    ⟨⟨emitter, files⟩, outcome⟩
  rw [published] at kept
  cases outcome with
  | error failure => exact kept
  | ok signal => exact kept

variable [BEq σ]

theorem act_ledger (traffic : Traffic σ) (now : Timestamp) (top : Delivery σ)
    (below : List (Delivery σ)) (first : Act σ) (rest : List (Act σ)) :
    (traffic.act now top below first rest).emitter.ledger = traffic.emitter.ledger := by
  cases first with
  | subscribe subscriber => rfl
  | unsubscribe subscriber => rfl
  | emit kind payload =>
      let going := traffic.withTop { top with current := { top.current with acts := rest } } below
      have kept : (going.emit now kind payload).1.emitter.ledger = traffic.emitter.ledger :=
        going.emit_ledger now kind payload
      simp only [act]
      rcases emitted : going.emit now kind payload with ⟨after, outcome⟩
      rw [emitted] at kept
      cases outcome with
      | ok signal => exact kept
      | error failure => exact kept

theorem step_ledger (react : σ → Signal → Reaction σ) (now : Timestamp) (traffic : Traffic σ) :
    (traffic.step react now).emitter.ledger = traffic.emitter.ledger := by
  unfold step
  split
  · rfl
  · split
    · exact act_ledger ..
    · rfl
    · split
      · rfl
      · rfl

theorem settle_ledger (react : σ → Signal → Reaction σ) (now : Timestamp) (steps : Nat)
    (traffic : Traffic σ) :
    (traffic.settle react now steps).emitter.ledger = traffic.emitter.ledger := by
  induction steps generalizing traffic with
  | zero => rfl
  | succ steps ih =>
      rw [settle]
      split
      · rfl
      · rw [ih, step_ledger]

end Signal.Traffic

namespace Simulation

/-- A world whose signals are delivered. -/
structure Audience (σ : Type) where
  world : World Int
  traffic : Signal.Traffic σ

namespace Audience

variable {σ : Type}

/-- What a world answers beside its audience. -/
def around {ρ : Type} (traffic : Signal.Traffic σ) :
    World Int × Answer (World Int) ρ → Audience σ × Answer (Audience σ) ρ
  | (world, .now reply) => (⟨world, traffic⟩, .now reply)
  | (world, .later delay finish) =>
      (⟨world, traffic⟩, .later delay fun woken audience =>
        ({ audience with world := (finish woken audience.world).1 },
          (finish woken audience.world).2))
  | (world, .putOff delay) => (⟨world, traffic⟩, .putOff delay)

/-- Emits a signal and delivers it within a number of steps. -/
def emit [BEq σ] (react : σ → Signal → Signal.Reaction σ) (steps : Nat) (audience : Audience σ)
    (now : Int) (kind : SignalKind) (payload : List (Value × Value)) :
    Audience σ × Except Failure Unit :=
  let time := audience.world.calendar now
  let (traffic, outcome) := audience.traffic.emit time kind (.map payload)
  ({ audience with traffic := traffic.settle react time steps }, outcome.map fun _ => ())

def answer [BEq σ] (react : σ → Signal → Signal.Reaction σ) (steps : Nat) (request : Request)
    (now : Int) (audience : Audience σ) : Audience σ × Answer (Audience σ) request.Reply :=
  match request with
  | .emit kind payload =>
      let (audience, outcome) := audience.emit react steps now kind payload
      (audience, .now outcome)
  | request => around audience.traffic (World.host.answer request now audience.world)

def host [BEq σ] (react : σ → Signal → Signal.Reaction σ) (steps : Nat) : Host (Audience σ) :=
  ⟨answer react steps⟩

def view (result : Value) : HostView (Audience σ) where
  Ready audience :=
    (World.view result).Ready audience.world ∧ audience.traffic.emitter.ledger = none
  limiter audience := audience.world.limiter
  attempts audience := audience.world.attempts
  pauses := (World.view result).pauses

variable {result : Value} {audience : Audience σ}

theorem shows_of_world {limiter : RateLimit.Limiter Int} {attempts : String → Attempts}
    {world : World Int} (shows : (World.view result).Shows limiter attempts world)
    {traffic : Signal.Traffic σ} (unwritten : traffic.emitter.ledger = none) :
    (view result).Shows limiter attempts (⟨world, traffic⟩ : Audience σ) :=
  ⟨⟨shows.ready, unwritten⟩, shows.limiter, shows.attempts⟩

theorem around_answers (ready : (view result).Ready audience) {request : Request} {name : String}
    {given : World Int × Answer (World Int) request.Reply}
    (answers : (World.view result).Answers name request audience.world given) :
    (view result).Answers name request audience (around audience.traffic given) := by
  cases answers with
  | now shows fits => exact .now (shows_of_world shows ready.2) fits
  | later shows finishes =>
      refine .later (shows_of_world shows ready.2) fun woken other otherReady => ?_
      obtain ⟨ended, fits⟩ := finishes woken other.world otherReady.1
      exact ⟨shows_of_world ended otherReady.2, fits⟩

variable [BEq σ] (react : σ → Signal → Signal.Reaction σ) (steps : Nat)

/-- Whatever subscribers do with a signal, its emission succeeds. -/
theorem emit_record (ready : (view result).Ready audience) (now : Int) (kind : SignalKind)
    {payload : List (Value × Value)}
    (texts : ∃ entries : Record, .map payload = Value.record entries) :
    (view result).Shows audience.world.limiter audience.world.attempts
        (audience.emit react steps now kind payload).1 ∧
      (audience.emit react steps now kind payload).2 = .ok () := by
  obtain ⟨entries, same⟩ := texts
  let time := audience.world.calendar now
  have kept := audience.traffic.emit_ledger time kind (.map payload)
  obtain ⟨after, signal, -, published⟩ :=
    Emitter.publish_record ready.2 audience.traffic.files time kind entries
  have emitted : (audience.traffic.emit time kind (.map payload)).2 = .ok signal := by
    rw [same, Signal.Traffic.emit, published]
  refine ⟨⟨⟨ready.1, ?_⟩, rfl, rfl⟩, ?_⟩
  · exact (Signal.Traffic.settle_ledger react time steps _).trans (kept.trans ready.2)
  · show (audience.traffic.emit time kind (.map payload)).2.map _ = _
    rw [emitted]
    rfl

theorem answer_of_ne {request : Request} (other : ∀ kind payload, request ≠ .emit kind payload)
    (now : Int) (audience : Audience σ) :
    (host react steps).answer request now audience =
      around audience.traffic (World.host.answer request now audience.world) := by
  cases request with
  | emit kind payload => exact absurd rfl (other kind payload)
  | _ => simp only [host, answer]

theorem takeSlot_ne_emit (scope : RateLimit.Scope) (target : String) (kind : SignalKind)
    (payload : List (Value × Value)) : Request.takeSlot scope target ≠ .emit kind payload := by
  intro same
  cases same

/-- A world with an audience serves programs, whatever its subscribers do. -/
theorem serves (result : Value) :
    (host react steps).Serves (view result) where
  ordinary := (World.serves result).ordinary
  answers {request name now state} ready own slot := by
    by_cases emits : ∃ kind payload, request = .emit kind payload
    · obtain ⟨kind, payload, rfl⟩ := emits
      obtain ⟨shows, emitted⟩ := emit_record react steps ready now kind own
      have idle : (view result).Shows ((view result).limiter state)
          (Function.update ((view result).attempts state) name ((view result).attempts state name))
          (state.emit react steps now kind payload).1 := by
        rw [Function.update_eq_self]
        exact shows
      exact .now idle emitted
    · rw [answer_of_ne react steps fun kind payload same => emits ⟨kind, payload, same⟩]
      exact around_answers ready ((World.serves result).answers ready.1 own slot)
  grants {scope now state limiter} target ready granted := by
    obtain ⟨next, answer, shows⟩ := (World.serves result).grants target ready.1 granted
    refine ⟨⟨next, _⟩, ?_, shows_of_world shows ready.2⟩
    rw [answer_of_ne react steps (takeSlot_ne_emit scope target), answer]
    rfl
  refuses {scope now state limiter delay} target ready late refused := by
    obtain ⟨next, pause, answer, positive, shows⟩ :=
      (World.serves result).refuses target ready.1 late refused
    refine ⟨⟨next, _⟩, pause, ?_, positive, shows_of_world shows ready.2⟩
    rw [answer_of_ne react steps (takeSlot_ne_emit scope target), answer]
    rfl

end Audience

end Simulation

end WebHarvest
