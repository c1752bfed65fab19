import WebHarvest.Proofs.RateLimit.Scheduled
import WebHarvest.Proofs.RateLimit.Turn
import WebHarvest.Proofs.Signal.Ledger

/-!
# Slots of the simulated world

What a simulated world says to a request for a slot is decided by the window of the scope, by the
time, and by whether a wait can be announced. The windows of the other scopes have no say in it, and
stay as they are.
-/

set_option autoImplicit false

namespace WebHarvest

open RateLimit (Limiter Scope SlidingWindow)

/-- Whether the ledger of an emitter, if it has one, takes lines, and how it fails otherwise. -/
def Emitter.takesLines {σ : Type} (emitter : Emitter σ) (files : FileTree) : Except Failure Unit :=
  match emitter.ledger with
  | none => .ok ()
  | some path => (files.target path).map fun _ => ()

/-- A line is written when the ledger takes lines, which it then does ever after. -/
theorem Emitter.writeLine_takesLines {σ : Type} (emitter : Emitter σ) (files : FileTree)
    {signal : Signal} {text : String} (line : signal.line = .ok text) :
    (emitter.writeLine files signal).2 = emitter.takesLines files ∧
      emitter.takesLines (emitter.writeLine files signal).1 = emitter.takesLines files := by
  cases ledger : emitter.ledger with
  | none => simp only [writeLine, takesLines, ledger, and_self]
  | some path =>
      cases reached : files.target path with
      | error failure =>
          have opening : files.append path "" = .error failure := by
            rw [FileTree.append, reached]
            rfl
          simp only [writeLine, takesLines, ledger, opening, reached, Except.map, and_self]
      | ok found =>
          obtain ⟨place, before⟩ := found
          obtain ⟨after, written, held, -⟩ := writeLine_of_target ledger reached line
          simp only [takesLines, ledger, reached, written, held, Except.map, and_self]

/-- What a signal says and when, apart from its place in the sequence and its source. -/
def Signal.said (signal : Signal) : SignalKind × Timestamp × Record :=
  (signal.kind, signal.timestamp, signal.payload)

namespace Simulation.World

/-- Whether waits can be announced. -/
def announces (world : World Int) : Except Failure Unit :=
  match world.emitter with
  | none => .ok ()
  | some emitter => emitter.takesLines world.files

/-- What is announced of a wait at a scope. Without an emitter nobody hears of it. -/
def notice (world : World Int) (now : Int) (scope : Scope) (target : String) (delay : Int) :
    List (SignalKind × Timestamp × Record) :=
  if world.emitter.isSome then
    [(.rateLimited, world.calendar now, [("scope", .text scope.name), ("url", .text target),
      ("wait_ms", .int (TimeScale.wholeMillis delay))])]
  else []

/-- The second world comes from the first by requests for slots. -/
structure Settled (world next : World Int) : Prop where
  skew : next.skew = world.skew
  epoch : next.epoch = world.epoch
  announces : next.announces = world.announces
  audience : next.emitter.isSome = world.emitter.isSome

namespace Settled

theorem refl (world : World Int) : world.Settled world := ⟨rfl, rfl, rfl, rfl⟩

theorem symm {world next : World Int} (settled : world.Settled next) : next.Settled world :=
  ⟨settled.skew.symm, settled.epoch.symm, settled.announces.symm, settled.audience.symm⟩

theorem trans {world next after : World Int} (first : world.Settled next)
    (second : next.Settled after) : world.Settled after where
  skew := second.skew.trans first.skew
  epoch := second.epoch.trans first.epoch
  announces := second.announces.trans first.announces
  audience := second.audience.trans first.audience

theorem notice {world next : World Int} (settled : world.Settled next) (now : Int) (scope : Scope)
    (target : String) (delay : Int) :
    next.notice now scope target delay = world.notice now scope target delay := by
  simp only [World.notice, calendar, settled.epoch, settled.audience]

end Settled

/-- A wait is announced if that is possible. -/
theorem emit_rateLimited (world : World Int) (now : Int) (scope : Scope) (target : String)
    (delay : Int) :
    ∃ next, world.emit now .rateLimited
        [(.text "scope", .text scope.name), (.text "url", .text target),
          (.text "wait_ms", .int (TimeScale.wholeMillis delay))] = (next, world.announces) ∧
      world.Settled next ∧ next.limiter = world.limiter ∧
      next.events.sleeps = world.events.sleeps ∧
      (world.announces = .ok () →
        next.events.signals.map Signal.said =
          world.events.signals.map Signal.said ++ world.notice now scope target delay) := by
  cases audience : world.emitter with
  | none =>
      refine ⟨world, ?_, .refl world, rfl, rfl, fun _ => ?_⟩
      · simp only [emit, announces, audience]
      · simp only [notice, audience, Option.isSome_none, Bool.false_eq_true, if_false,
          List.append_nil]
  | some emitter =>
      let said : Record := [("scope", .text scope.name), ("url", .text target),
        ("wait_ms", .int (TimeScale.wholeMillis delay))]
      let signal : Signal :=
        ⟨emitter.count + 1, .rateLimited, world.calendar now, emitter.source, said⟩
      have made : emitter.signalOf (world.calendar now) .rateLimited
          (.map [(.text "scope", .text scope.name), (.text "url", .text target),
            (.text "wait_ms", .int (TimeScale.wholeMillis delay))]) = .ok signal := rfl
      obtain ⟨text, line⟩ : ∃ text, signal.line = .ok text := ⟨_, rfl⟩
      obtain ⟨written, stays⟩ := emitter.writeLine_takesLines world.files line
      have published := Emitter.publish_of_signal made world.files
      have possible : world.announces = emitter.takesLines world.files := by
        simp only [announces, audience]
      have stillPossible : emitter.takesLines (emitter.writeLine world.files signal).1 =
          world.announces := stays.trans possible.symm
      rw [written, ← possible] at published
      rw [emit, audience]
      dsimp only
      rw [published]
      cases taken : world.announces with
      | error failure =>
          rw [taken] at stillPossible
          exact ⟨_, rfl, ⟨rfl, rfl, stillPossible.trans taken.symm, by rw [audience]; rfl⟩, rfl,
            rfl, fun possible => by cases possible⟩
      | ok =>
          rw [taken] at stillPossible
          refine ⟨_, rfl, ⟨rfl, rfl, stillPossible.trans taken.symm, by rw [audience]; rfl⟩, rfl,
            rfl, fun _ => ?_⟩
          simp only [withEvents, List.map_append, List.map_cons, List.map_nil, notice, audience,
            Option.isSome_some, if_true]
          rfl

/-- What a request for a slot is told that has to wait for some time, or for none. -/
def verdict (world : World Int) : Option Int → Answer (World Int) (Except Failure Unit)
  | none => .now (.ok ())
  | some delay =>
      match world.announces with
      | .error failure => .now (.error failure)
      | .ok () => .putOff (if world.skew < delay then delay - world.skew else delay)

theorem Settled.verdict {world next : World Int} (settled : world.Settled next)
    (delay : Option Int) : next.verdict delay = world.verdict delay := by
  cases delay with
  | none => rfl
  | some delay => simp only [World.verdict, settled.announces, settled.skew]

/-- A request for a slot changes the window of its scope, and no other. A wait is announced and then
noted. -/
theorem takeSlot_spec (world : World Int) (now : Int) (scope : Scope) (target : String) :
    let asked := RateLimit.ask (world.limiter.windowOf scope) now
    ∃ next, World.host.answer (.takeSlot scope target) now world =
        (next, world.verdict asked.2) ∧
      world.Settled next ∧
      next.limiter.windowOf = Function.update world.limiter.windowOf scope asked.1 ∧
      (world.announces = .ok () →
        next.events.sleeps = world.events.sleeps ++ asked.2.toList ∧
        next.events.signals.map Signal.said = world.events.signals.map Signal.said ++
          asked.2.toList.flatMap (world.notice now scope target)) := by
  intro asked
  obtain ⟨limiter, polled, replaced⟩ := world.limiter.poll_ask scope now
  cases wait : asked.2 with
  | none =>
      rw [wait] at polled
      refine ⟨_, RateLimit.takeSlot_of_granted target polled, ⟨rfl, rfl, rfl, rfl⟩, replaced,
        fun _ => ⟨?_, ?_⟩⟩
      · exact (List.append_nil _).symm
      · exact (List.append_nil _).symm
  | some delay =>
      rw [wait] at polled
      have answer : World.host.answer (.takeSlot scope target) now world =
          world.takeSlot now scope target := rfl
      rw [answer, takeSlot]
      simp only [TimeScale.reading, polled, TimeScale.millis]
      generalize noted : World.log { world with limiter } _ = logged
      have same : world.Settled logged ∧ logged.limiter = limiter ∧
          logged.events.sleeps = world.events.sleeps ∧
          logged.events.signals = world.events.signals := by
        rw [← noted]
        exact ⟨⟨rfl, rfl, rfl, rfl⟩, rfl, rfl, rfl⟩
      obtain ⟨settled, holds, sleeps, signals⟩ := same
      obtain ⟨next, emitted, settles, keeps, sleepsToo, heard⟩ :=
        logged.emit_rateLimited now scope target delay
      have whole := settled.trans settles
      rw [emitted, verdict]
      rcases possible : world.announces with failure | ⟨⟩
      · rw [settled.announces, possible]
        exact ⟨next, rfl, whole, by rw [keeps, holds, replaced], fun silent => by cases silent⟩
      · rw [settled.announces, possible] at heard ⊢
        dsimp only [TimeScale.pause]
        rw [whole.skew]
        refine ⟨_, rfl, ⟨whole.skew, whole.epoch, whole.announces, whole.audience⟩, ?_,
          fun _ => ⟨?_, ?_⟩⟩
        · rw [← replaced, ← holds, ← keeps]
          rfl
        · rw [← sleeps, ← sleepsToo]
          rfl
        · rw [← signals, Option.toList_some, List.flatMap_singleton,
            ← settled.notice now scope target delay, ← heard rfl]
          rfl

end Simulation.World

end WebHarvest
