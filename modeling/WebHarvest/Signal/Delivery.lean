import WebHarvest.Signal.Emitter
import WebHarvest.Telemetry

/-!
# Delivering signals

A signal goes to the subscribers of the roster that was the latest one at its emission, one after
the other. A subscriber may subscribe and unsubscribe, and it may emit signals itself: these are
delivered completely before it goes on. A subscriber that fails is reported, and the delivery goes
on with the next one.

The deliveries under way form a stack, and one step advances the topmost.
-/

set_option autoImplicit false

namespace WebHarvest.Signal

/-- What a subscriber can do while it handles a signal. -/
inductive Act (σ : Type) where
  | subscribe (subscriber : σ)
  | unsubscribe (subscriber : σ)
  | emit (kind : SignalKind) (payload : Value)

/-- How a subscriber handles a signal: what it does, and whether it fails in the end. -/
structure Reaction (σ : Type) where
  acts : List (Act σ) := []
  failure : Option Failure := none

/-- A delivery under way: its signal, the number of its roster, how many subscribers have been
called, and what the last of them has still to do. -/
structure Delivery (σ : Type) where
  signal : Signal
  roster : Nat
  called : Nat := 0
  current : Reaction σ := {}

/-- An emitter with its files, the deliveries under way (topmost first), and what has happened:
which subscriber was called with which signal, and the reports. -/
structure Traffic (σ : Type) where
  emitter : Emitter σ
  files : FileTree
  stack : List (Delivery σ) := []
  calls : List (σ × Signal) := []
  reports : List LogRecord := []

namespace Traffic

variable {σ : Type}

def logger : String := componentLogger "signals.emitter"

def failureReport (signal : Signal) (failure : Failure) : LogRecord :=
  structuredError logger .signalSubscriberFailure failure.message true .null .null
    (.record [("signal_type", .text signal.kind.name)])

def emit (traffic : Traffic σ) (now : Timestamp) (kind : SignalKind) (payload : Value) :
    Traffic σ × Except Failure Signal :=
  match traffic.emitter.publish traffic.files now kind payload with
  | ((emitter, files), .error failure) => ({ traffic with emitter, files }, .error failure)
  | ((emitter, files), .ok signal) =>
      ({ traffic with
          emitter, files
          stack := { signal, roster := emitter.rosterNumber } :: traffic.stack },
        .ok signal)

def withTop (traffic : Traffic σ) (top : Delivery σ) (below : List (Delivery σ)) :
    Traffic σ :=
  { traffic with stack := top :: below }

/-- Performs one act of the subscriber that the topmost delivery has called. An emission that fails
ends what the subscriber does. -/
def act [BEq σ] (traffic : Traffic σ) (now : Timestamp) (top : Delivery σ)
    (below : List (Delivery σ)) (first : Act σ) (rest : List (Act σ)) : Traffic σ :=
  let going := traffic.withTop { top with current := { top.current with acts := rest } } below
  match first with
  | .subscribe subscriber => { going with emitter := going.emitter.subscribe subscriber }
  | .unsubscribe subscriber => { going with emitter := going.emitter.unsubscribe subscriber }
  | .emit kind payload =>
      match going.emit now kind payload with
      | (emitted, .ok _) => emitted
      | (refused, .error failure) =>
          refused.withTop { top with current := { failure := some failure } } below

/-- Advances the topmost delivery: the last subscriber it called goes on, or its failure is
reported, or the next subscriber is called. Without a next one the delivery is over. -/
def step [BEq σ] (react : σ → Signal → Reaction σ) (now : Timestamp) (traffic : Traffic σ) :
    Traffic σ :=
  match traffic.stack with
  | [] => traffic
  | top :: below =>
      match top.current.acts, top.current.failure with
      | first :: rest, _ => traffic.act now top below first rest
      | [], some failure =>
          { traffic.withTop { top with current := {} } below with
            reports := traffic.reports ++ [failureReport top.signal failure] }
      | [], none =>
          match (traffic.emitter.rosterAt top.roster)[top.called]? with
          | none => { traffic with stack := below }
          | some subscriber =>
              { traffic.withTop
                  { top with
                    called := top.called + 1
                    current := react subscriber top.signal } below with
                calls := traffic.calls ++ [(subscriber, top.signal)] }

/-- Advances deliveries until none is under way, within a number of steps. -/
def settle [BEq σ] (react : σ → Signal → Reaction σ) (now : Timestamp) :
    Nat → Traffic σ → Traffic σ
  | 0, traffic => traffic
  | steps + 1, traffic =>
      if traffic.stack.isEmpty then traffic else (traffic.step react now).settle react now steps

end Traffic

end WebHarvest.Signal
