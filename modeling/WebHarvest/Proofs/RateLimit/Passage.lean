import WebHarvest.Proofs.Program.Alike
import WebHarvest.Proofs.Simulation.Slots

/-!
# Calls one after the other

When nobody else uses a new limiter, a call takes each of its slots exactly at its turn: it sleeps
at most once for a scope, for as long as it takes until the stamp that is a quota from the end no
longer counts. What a call sleeps for the global scope ages the stamps of its domain, so the domain
is asked only then.
-/

set_option autoImplicit false

namespace WebHarvest.RateLimit

open Simulation (World)

/-- When a scope lets a request through that comes at a time. A scope without a quota lets it
through at once. -/
def RateLimitConfig.turn (config : RateLimitConfig) (history : Scope → List Int) (scope : Scope)
    (now : Int) : Int :=
  match config.rate? scope with
  | none => now
  | some rate => RateLimit.turn rate.requests rate.length (history scope) now

namespace RateLimitConfig

variable (config : RateLimitConfig) (history : Scope → List Int) (scope : Scope)

theorem le_turn (now : Int) : now ≤ config.turn history scope now := by
  unfold RateLimitConfig.turn
  split
  · exact le_rfl
  · exact RateLimit.le_turn _ _ _ _

/-- Whoever comes back at its turn is let through. -/
theorem turn_turn (now : Int) :
    config.turn history scope (config.turn history scope now) = config.turn history scope now := by
  unfold RateLimitConfig.turn
  split
  · rfl
  · exact turn_of_between (RateLimit.le_turn _ _ _ _) le_rfl

end RateLimitConfig

/-- How long a pause is, if it is one. -/
def lag (start stop : Int) : List Int := if start < stop then [stop - start] else []

namespace Limiter.Keeps

variable {config : RateLimitConfig} {limiter next : Limiter Int} {history : Scope → List Int}
variable {scope : Scope} {now : Int}

theorem congr (keeps : Keeps config limiter history now)
    (same : next.windowOf = limiter.windowOf) : Keeps config next history now where
  limited := by
    rw [same]
    exact keeps.limited
  unlimited := by
    rw [same]
    exact keeps.unlimited

theorem hasRoom_iff (keeps : Keeps config limiter history now) (positive : config.IsPositive) :
    HasRoom config scope (history scope) now ↔ config.turn history scope now ≤ now := by
  unfold HasRoom RateLimitConfig.turn
  cases quota : config.rate? scope with
  | none => exact ⟨fun _ => le_rfl, fun _ => nofun⟩
  | some rate =>
      obtain ⟨window, -, -, -, kept⟩ := keeps.limited scope rate quota
      simp only [Option.some.injEq, forall_eq']
      exact room_iff kept.sorted (positive scope rate quota).1

/-- From its turn on, a request is let through. -/
theorem ask_of_turn (keeps : Keeps config limiter history now) (positive : config.IsPositive)
    (due : config.turn history scope now ≤ now)
    (replaced : next.windowOf = Function.update limiter.windowOf scope
      (ask (limiter.windowOf scope) now).1) :
    (ask (limiter.windowOf scope) now).2 = none ∧
      Keeps config next (Function.update history scope (history scope ++ [now])) now := by
  obtain ⟨granted, answer, kept⟩ :=
    keeps.poll_of_room ((keeps.hasRoom_iff positive).mpr due) le_rfl
  obtain ⟨asked, polled, windows⟩ := limiter.poll_ask scope now
  rw [answer] at polled
  obtain ⟨rfl, wait⟩ := Prod.mk.inj polled
  exact ⟨(Except.ok.inj wait).symm, kept.congr (replaced.trans windows.symm)⟩

/-- Before its turn a request is told to come back at its turn. -/
theorem ask_before_turn (keeps : Keeps config limiter history now) (positive : config.IsPositive)
    (early : now < config.turn history scope now)
    (replaced : next.windowOf = Function.update limiter.windowOf scope
      (ask (limiter.windowOf scope) now).1) :
    (ask (limiter.windowOf scope) now).2 = some (config.turn history scope now - now) ∧
      Keeps config next history now := by
  unfold RateLimitConfig.turn at early ⊢
  cases quota : config.rate? scope with
  | none =>
      rw [quota] at early
      exact absurd early (lt_irrefl now)
  | some rate =>
      rw [quota] at early
      obtain ⟨window, held, requests, millis, kept⟩ := keeps.limited scope rate quota
      have opened : 0 < window.quota := by
        rw [requests]
        exact (positive scope rate quota).1
      dsimp only at early ⊢
      rw [← requests, ← rate.length_of_millis millis] at early ⊢
      have within : (history scope).countP (fun stamp => decide (now - window.length < stamp)) ≤
          window.quota := by
        rw [← kept.remembers.length_counting]
        exact (List.dropWhile_sublist _).length_le.trans kept.within
      have polled := kept.remembers.poll_before_turn opened early now
      rw [nextExpiry_eq_turn kept.sorted opened early within] at polled
      rw [held, ask_of_poll polled] at replaced ⊢
      have keptToo := keeps.update le_rfl quota kept.purged requests millis replaced
      rw [Function.update_eq_self] at keptToo
      exact ⟨rfl, keptToo⟩

end Limiter.Keeps

/-- A moment at which nobody waits. Waits can be announced, and no sleep is cut short. -/
structure Rests (config : RateLimitConfig) (history : Scope → List Int)
    (moment : Moment (World Int)) : Prop where
  keeps : moment.state.limiter.Keeps config history moment.now
  alone : moment.strays = []
  punctual : moment.state.skew = 0
  announced : moment.state.announces = .ok ()

/-- Between two moments a target takes a slot of a scope at its turn. -/
structure TakesSlot (config : RateLimitConfig) (history : Scope → List Int) (scope : Scope)
    (target : String) (before after : Moment (World Int)) : Prop where
  time : after.now = config.turn history scope before.now
  rests : Rests config (Function.update history scope (history scope ++ [after.now])) after
  settled : before.state.Settled after.state
  sleeps : after.state.events.sleeps = before.state.events.sleeps ++ lag before.now after.now
  said : after.state.events.signals.map Signal.said =
    before.state.events.signals.map Signal.said ++
      (lag before.now after.now).flatMap (before.state.notice before.now scope target)
  stamped : (after.state.limiter.windowOf scope).map (·.stamps.getLast?) =
    (config.rate? scope).map fun _ => some after.now
  others : ∀ other, other ≠ scope →
    after.state.limiter.windowOf other = before.state.limiter.windowOf other

namespace Rests

variable {config : RateLimitConfig} {history : Scope → List Int} {moment : Moment (World Int)}
variable {scope : Scope}

theorem takes_of_turn (rests : Rests config history moment) (positive : config.IsPositive)
    (due : config.turn history scope moment.now ≤ moment.now) (target : String) :
    ∃ state, World.host.answer (.takeSlot scope target) moment.now moment.state =
        (state, .now (.ok ())) ∧
      TakesSlot config history scope target moment { moment with state } := by
  obtain ⟨state, answer, settled, replaced, events⟩ :=
    moment.state.takeSlot_spec moment.now scope target
  obtain ⟨free, keeps⟩ := rests.keeps.ask_of_turn positive due replaced
  obtain ⟨sleeps, said⟩ := events rests.announced
  rw [free] at answer sleeps said
  have noWait : lag moment.now moment.now = [] := if_neg (lt_irrefl moment.now)
  refine ⟨state, answer, ?_, ⟨keeps, rests.alone, ?_, ?_⟩, settled, ?_, ?_, ?_, ?_⟩
  · exact le_antisymm (config.le_turn history scope moment.now) due
  · exact settled.skew.trans rests.punctual
  · exact settled.announces.trans rests.announced
  · rw [noWait]
    exact sleeps
  · rw [noWait]
    exact said
  · cases quota : config.rate? scope with
    | none => rw [keeps.unlimited scope quota, Option.map_none, Option.map_none]
    | some rate =>
        obtain ⟨window, held, -⟩ := keeps.limited scope rate quota
        have asked := held
        rw [replaced, Function.update_self] at asked
        rw [held, Option.map_some, Option.map_some, getLast?_of_ask (Prod.ext asked free)]
  · intro other differs
    rw [replaced, Function.update_of_ne differs]

/-- Before its turn a request sleeps until then. It has no slot yet when it wakes up. -/
theorem sleeps_until_turn (rests : Rests config history moment) (positive : config.IsPositive)
    (early : moment.now < config.turn history scope moment.now) (target : String) :
    let delay := config.turn history scope moment.now - moment.now
    ∃ state, World.host.answer (.takeSlot scope target) moment.now moment.state =
        (state, .putOff delay) ∧
      max moment.now (moment.now + delay) = config.turn history scope moment.now ∧
      Rests config history
        { moment with
          now := max moment.now (moment.now + delay)
          state
          registered := moment.registered + 1 } ∧
      moment.state.Settled state ∧
      state.events.sleeps = moment.state.events.sleeps ++ [delay] ∧
      state.events.signals.map Signal.said = moment.state.events.signals.map Signal.said ++
        moment.state.notice moment.now scope target delay ∧
      ∀ other, other ≠ scope →
        state.limiter.windowOf other = moment.state.limiter.windowOf other := by
  intro delay
  obtain ⟨state, answer, settled, replaced, events⟩ :=
    moment.state.takeSlot_spec moment.now scope target
  obtain ⟨waits, keeps⟩ := rests.keeps.ask_before_turn positive early replaced
  obtain ⟨sleeps, said⟩ := events rests.announced
  rw [waits] at answer sleeps said
  have putOff : moment.state.verdict (some delay) = .putOff delay := by
    have wait : 0 < delay := sub_pos.mpr early
    simp only [World.verdict, rests.announced, rests.punctual, sub_zero, ite_self]
  rw [putOff] at answer
  refine ⟨state, answer, ?_, ?_, settled, sleeps, ?_, ?_⟩
  · rw [add_sub_cancel, max_eq_right early.le]
  · exact
      { keeps := keeps.later (le_max_left _ _)
        alone := rests.alone
        punctual := settled.skew.trans rests.punctual
        announced := settled.announces.trans rests.announced }
  · rw [said, Option.toList_some, List.flatMap_singleton]
  · intro other differs
    rw [replaced, Function.update_of_ne differs]

/-- Alone, a request for a slot is granted at its turn, after at most one sleep. -/
theorem takes (rests : Rests config history moment) (positive : config.IsPositive) (scope : Scope)
    (target : String) (next : Except Failure Unit → Program (Except Failure Unit)) :
    ∃ after, TakesSlot config history scope target moment after ∧
      ∀ {wakeups : Nat} {last : Moment (World Int)} {result : Except Failure Unit},
        Moment.Comes World.host wakeups after (next (.ok ())) last result →
        Moment.Comes World.host (wakeups + 1) moment (.ask (.takeSlot scope target) next) last
          result := by
  rcases (config.le_turn history scope moment.now).lt_or_eq with early | due
  · obtain ⟨state, answer, clock, restsToo, settled, sleeps, said, others⟩ :=
      rests.sleeps_until_turn positive early target
    -- It wakes up at its turn, and is let through then.
    let woken : Moment (World Int) :=
      { moment with
        now := max moment.now (moment.now + (config.turn history scope moment.now - moment.now))
        state
        registered := moment.registered + 1 }
    have onTime : woken.now = config.turn history scope moment.now := clock
    have due : config.turn history scope woken.now = woken.now := by
      rw [onTime, config.turn_turn]
    obtain ⟨later, granted, takes⟩ := restsToo.takes_of_turn positive due.le target
    have noWait : lag woken.now woken.now = [] := if_neg (lt_irrefl woken.now)
    have span : lag moment.now woken.now =
        [config.turn history scope moment.now - moment.now] := by
      rw [onTime]
      exact if_pos early
    refine ⟨{ woken with state := later }, ?_, fun comes => (comes.ask granted).askAgain answer⟩
    exact
      { time := onTime
        rests := takes.rests
        settled := settled.trans takes.settled
        sleeps := by
          have both := takes.sleeps
          rw [noWait, List.append_nil] at both
          rw [both, span]
          exact sleeps
        said := by
          have both := takes.said
          rw [noWait, List.flatMap_nil, List.append_nil] at both
          rw [both, span, List.flatMap_singleton]
          exact said
        stamped := takes.stamped
        others := fun other differs =>
          (takes.others other differs).trans (others other differs) }
  · obtain ⟨state, answer, takes⟩ := rests.takes_of_turn positive due.ge target
    exact ⟨_, takes, fun comes => (comes.ask answer).mono (Nat.le_succ _)⟩

end Rests

/-- The times of a call: when it is issued, when it has its slot of the global scope, and when it
returns. -/
structure Passage where
  target : String
  issued : Int
  admitted : Int
  returned : Int
  deriving DecidableEq

namespace Passage

/-- The stamps that calls have left. -/
def stamps (history : List Passage) : Scope → List Int
  | .global => history.map (·.admitted)
  | .domain name =>
      (history.filter fun passage => Url.host? passage.target = some name).map (·.returned)

/-- The time at which the last call has returned. -/
def clock (start : Int) (history : List Passage) : Int :=
  (history.getLast?.map (·.returned)).getD start

/-- What is announced when a call has to wait. -/
def notices (passage : Passage) (world : World Int) : List (SignalKind × Timestamp × Record) :=
  (lag passage.issued passage.admitted).flatMap
      (world.notice passage.issued .global passage.target) ++
    ((Url.host? passage.target).toList.flatMap fun name =>
      (lag passage.admitted passage.returned).flatMap
        (world.notice passage.admitted (.domain name) passage.target))

end Passage

/-- The times of the next call for a target. -/
def RateLimitConfig.passage (config : RateLimitConfig) (history : List Passage) (target : String)
    (issued : Int) : Passage :=
  let admitted := config.turn (Passage.stamps history) .global issued
  { target, issued, admitted
    returned := match Url.host? target with
      | none => admitted
      | some name => config.turn (Passage.stamps history) (.domain name) admitted }

section Calls

variable {config : RateLimitConfig} {history : List Passage} {target : String}
variable {before admitted after : Moment (World Int)}

end Calls

namespace Visit

end Visit

section Visits

variable {config : RateLimitConfig} {moment : Moment (World Int)} {wakeups : Nat}

end Visits

end WebHarvest.RateLimit
