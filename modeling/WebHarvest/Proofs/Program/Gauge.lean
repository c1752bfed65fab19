import WebHarvest.Proofs.Program.Schedule
import WebHarvest.Proofs.Program.Settles
import WebHarvest.Proofs.RateLimit.Vacancy

/-!
# Hosts that keep time

A host keeps time when it tells the time from an exact clock, counts what it is told to count, and
leaves it to its limiter who has to come back for a slot. All other replies come sooner or later,
and nothing fails in other than ordinary ways. What operations come to, and how long they take, is
left open, and may be different every time.
-/

set_option autoImplicit false

namespace WebHarvest

open RateLimit (Limiter Scope)

namespace Request

def IsServed (request : Request) : Prop := ∃ name, request.IsFor name

/-- Requests that tell how far a batch is. -/
def isNews : Request → Bool
  | .emit kind _ => kind == .batchProgress || kind == .batchComplete
  | .progress .. => true
  | _ => false

/-- Requests that no job makes for itself. -/
def isBatch : Request → Bool
  | .beginCount | .countSettled _ => true
  | request => request.isNews

/-- Requests that no host has to wait for. -/
def IsPrompt : Request → Prop
  | .now | .elapsed _ | .log _ | .beginCount | .countSettled _ => True
  | _ => False

/-- Replies at a certain time. The clock is right, a batch can announce how far it is, and failures
are ordinary. -/
def Sound (time : Int) : (request : Request) → request.Reply → Prop
  | .now, reply => reply = time
  | .elapsed since, reply => reply = TimeScale.wholeMillis (time - since)
  | .emit kind payload, reply =>
      (Request.isNews (.emit kind payload) = true → reply = .ok ()) ∧
        ∀ failure, reply = .error failure → failure.isOrdinary = true
  | .pause _, reply => ∀ failure, reply = .error failure → failure.isOrdinary = true
  | .takeSlot .., reply => ∀ failure, reply = .error failure → failure.isOrdinary = true
  | .observe .., reply => ∀ failure, reply = .error failure → failure.isOrdinary = true
  | .progress .., reply => ∀ failure, reply = .error failure → failure.isOrdinary = true
  | .perform _, reply => ∀ failure, reply = .error failure → failure.isOrdinary = true
  | _, _ => True

/-- What a request and its reply have to do with the counts before and after it. -/
def Counts (before after : List Nat) : (request : Request) → request.Reply → Prop
  | .beginCount, reply => reply = before.length ∧ after = before ++ [0]
  | .countSettled number, reply =>
      after = before.modify number (· + 1) ∧ reply = after[number]?.getD 0
  | _, _ => after = before

end Request

/-- What is to be read off the states of a host. -/
structure Gauge (σ : Type) where
  Ready : σ → Prop
  limiter : σ → Limiter Int
  /-- How many jobs have settled, for every count that was begun. -/
  counts : σ → List Nat
  /-- Requests to which the reply comes at once. -/
  atOnce : Request → Prop

namespace Gauge

variable {σ : Type}

/-- Nothing has changed that programs depend on. -/
structure Kept (gauge : Gauge σ) (state next : σ) : Prop where
  ready : gauge.Ready next
  limiter : gauge.limiter next = gauge.limiter state
  counts : gauge.counts next = gauge.counts state

inductive Answers (gauge : Gauge σ) (request : Request) (time : Int) (state : σ) :
    σ × Answer σ request.Reply → Prop where
  | now {next : σ} {reply : request.Reply} (ready : gauge.Ready next)
      (limiter : gauge.limiter next = gauge.limiter state)
      (counts : request.Counts (gauge.counts state) (gauge.counts next) reply)
      (sound : request.Sound time reply) :
      Answers gauge request time state (next, .now reply)
  | later {next : σ} {delay : Int} {finish : Int → σ → σ × request.Reply}
      (slow : ¬ gauge.atOnce request) (kept : gauge.Kept state next)
      (finishes : ∀ woken other, gauge.Ready other →
        gauge.Kept other (finish woken other).1 ∧ request.Sound woken (finish woken other).2) :
      Answers gauge request time state (next, .later delay finish)

/-- A state in which every scope of the limiter lets some request through. -/
structure Calm (gauge : Gauge σ) (state : σ) : Prop where
  ready : gauge.Ready state
  isOpen : (gauge.limiter state).IsOpen

def FreeBy (gauge : Gauge σ) (state : σ) (time : Int) : Prop := (gauge.limiter state).FreeBy time

theorem Kept.calm {gauge : Gauge σ} {state next : σ} (kept : gauge.Kept state next)
    (calm : gauge.Calm state) : gauge.Calm next where
  ready := kept.ready
  isOpen := by
    rw [kept.limiter]
    exact calm.isOpen

theorem Kept.freeBy {gauge : Gauge σ} {state next : σ} (kept : gauge.Kept state next)
    {time : Int} (free : gauge.FreeBy state time) : gauge.FreeBy next time := by
  rw [FreeBy, kept.limiter]
  exact free

end Gauge

/-- The clock is exact, the limiter decides about slots, and the other replies come now or later. A
limiter that cannot announce that somebody has to wait may fail. -/
structure Host.KeepsTime {σ : Type} (host : Host σ) (gauge : Gauge σ) : Prop where
  prompt : ∀ {request}, request.IsPrompt → gauge.atOnce request
  answers : ∀ {request time state}, gauge.Ready state → request.IsServed →
    (∀ scope target, request ≠ .takeSlot scope target) →
    gauge.Answers request time state (host.answer request time state)
  grants : ∀ {scope time state limiter} (target : String), gauge.Ready state →
    (gauge.limiter state).poll scope time time = (limiter, .ok none) →
    ∃ next, host.answer (.takeSlot scope target) time state = (next, .now (.ok ())) ∧
      gauge.Ready next ∧ gauge.limiter next = limiter ∧ gauge.counts next = gauge.counts state
  refuses : ∀ {scope time state limiter delay} (target : String), gauge.Ready state → 0 < delay →
    (gauge.limiter state).poll scope time time = (limiter, .ok (some delay)) →
    ∃ next, gauge.Ready next ∧ gauge.limiter next = limiter ∧
      gauge.counts next = gauge.counts state ∧
      ((∃ pause, host.answer (.takeSlot scope target) time state = (next, .putOff pause) ∧
          0 < pause) ∨
        ∃ failure, host.answer (.takeSlot scope target) time state =
          (next, .now (.error failure)) ∧ failure.isOrdinary = true)

namespace Gauge

variable {σ : Type}

/-- What a program is told by a host that keeps time. It is put off only when it asks for a slot,
and not for ever. -/
inductive Treats (gauge : Gauge σ) (request : Request) (time : Int) (state : σ) :
    σ × Answer σ request.Reply → Prop where
  | now {next : σ} {reply : request.Reply} (calm : gauge.Calm next)
      (counts : request.Counts (gauge.counts state) (gauge.counts next) reply)
      (sound : request.Sound time reply) :
      Treats gauge request time state (next, .now reply)
  | later {next : σ} {delay : Int} {finish : Int → σ → σ × request.Reply}
      (slow : ¬ gauge.atOnce request) (kept : gauge.Kept state next)
      (finishes : ∀ woken other, gauge.Ready other →
        gauge.Kept other (finish woken other).1 ∧ request.Sound woken (finish woken other).2) :
      Treats gauge request time state (next, .later delay finish)
  | putOff {next : σ} {delay : Int} (slot : ∃ scope target, request = .takeSlot scope target)
      (calm : gauge.Calm next) (counts : gauge.counts next = gauge.counts state)
      (late : 0 < delay)
      (busy : ∀ time', gauge.FreeBy state time' → gauge.FreeBy next time' ∧ time < time') :
      Treats gauge request time state (next, .putOff delay)

end Gauge

theorem Host.KeepsTime.treats {σ : Type} {host : Host σ} {gauge : Gauge σ}
    (keeps : host.KeepsTime gauge) {request : Request} (served : request.IsServed) (time : Int)
    {state : σ} (calm : gauge.Calm state) :
    gauge.Treats request time state (host.answer request time state) := by
  by_cases slot : ∃ scope target, request = .takeSlot scope target
  · obtain ⟨scope, target, rfl⟩ := slot
    obtain ⟨limiter, stays, granted | ⟨delay, late, refused, busy⟩⟩ :=
      RateLimit.Limiter.poll_progress calm.isOpen scope time
    · obtain ⟨next, answer, ready, same, counts⟩ := keeps.grants target calm.ready granted
      rw [answer]
      exact .now ⟨ready, same ▸ stays⟩ counts nofun
    · obtain ⟨next, ready, same, counts, ⟨pause, answer, positive⟩ | ⟨failure, answer, ordinary⟩⟩ :=
        keeps.refuses target calm.ready late refused
      · rw [answer]
        refine .putOff ⟨scope, target, rfl⟩ ⟨ready, same ▸ stays⟩ counts positive ?_
        intro time' free
        rw [Gauge.FreeBy, same]
        exact busy time' free
      · rw [answer]
        refine .now ⟨ready, same ▸ stays⟩ counts ?_
        rintro _ ⟨⟩
        exact ordinary
  · have answers : gauge.Answers request time state (host.answer request time state) :=
      keeps.answers calm.ready served fun scope target is => slot ⟨scope, target, is⟩
    rcases given : host.answer request time state with ⟨next, answer⟩
    rw [given] at answers
    cases answers with
    | now ready limiter counts sound => exact .now ⟨ready, limiter ▸ calm.isOpen⟩ counts sound
    | later slow kept finishes => exact .later slow kept finishes

end WebHarvest
