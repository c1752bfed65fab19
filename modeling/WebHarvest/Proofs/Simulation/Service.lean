import WebHarvest.Proofs.Outcome
import WebHarvest.Proofs.Program.Service
import WebHarvest.Proofs.RateLimit.Scheduled

/-!
# The simulated world serves

A simulated world without a ledger serves programs, whatever its scripts, its limiter and its
callbacks are.
-/

set_option autoImplicit false

namespace WebHarvest

namespace Emitter

variable {σ : Type}

theorem signalOf_record (emitter : Emitter σ) (now : Timestamp) (kind : SignalKind)
    (entries : Record) :
    ∃ signal, emitter.signalOf now kind (Value.record entries) = .ok signal := by
  have data : (if (Value.record entries).isEmpty then .map [] else Value.record entries) =
      Value.record entries := by
    cases entries with
    | nil => rfl
    | cons => rfl
  rw [signalOf, data]
  simp only [Check.record_record]
  exact ⟨_, rfl⟩

/-- Without a ledger nothing is in the way of a signal that says something plain. -/
theorem publish_record {emitter : Emitter σ} (unwritten : emitter.ledger = none)
    (files : FileTree) (now : Timestamp) (kind : SignalKind) (entries : Record) :
    ∃ (after : Emitter σ) (signal : Signal), after.ledger = none ∧
      emitter.publish files now kind (Value.record entries) = ((after, files), .ok signal) := by
  obtain ⟨signal, made⟩ := emitter.signalOf_record now kind entries
  simp only [publish, made, writeLine, unwritten]
  exact ⟨_, signal, rfl, rfl⟩

end Emitter

namespace Simulation

open RateLimit (Limiter Scope)

namespace Script

def turnsOf (script : Script) (name : String) : List Turn :=
  ((script.find? (·.1 == name)).map (·.2)).getD []

theorem turnsOf_drop (script : Script) (name other : String) :
    turnsOf (script.map fun (n, turns) => if n == name then (n, turns.drop 1) else (n, turns))
        other =
      if other = name then (script.turnsOf other).drop 1 else script.turnsOf other := by
  rw [turnsOf, turnsOf, List.find?_map]
  have named : ((fun entry : String × List Turn => entry.1 == other) ∘
      fun (n, turns) => if n == name then (n, List.drop 1 turns) else (n, turns)) =
        fun entry => entry.1 == other := by
    funext ⟨n, turns⟩
    by_cases own : n = name
    · simp [own]
    · simp [own]
  rw [named]
  cases found : script.find? (·.1 == other) with
  | none => simp
  | some entry =>
      obtain ⟨n, turns⟩ := entry
      obtain rfl : n = other := by simpa using List.find?_some found
      by_cases own : n = name
      · simp [own]
      · simp [own]

theorem next_eq (script : Script) (name : String) :
    (script.next name).1 = ((script.turnsOf name)[0]?).getD {} ∧
      ∀ other, turnsOf (script.next name).2 other =
        if other = name then (script.turnsOf other).drop 1 else script.turnsOf other := by
  unfold next
  split
  next turn rest found =>
    refine ⟨?_, turnsOf_drop script name⟩
    rw [turnsOf, found]
    rfl
  next absent =>
    have empty : script.turnsOf name = [] := by
      rw [turnsOf]
      cases known : (script.find? (·.1 == name)).map (·.2) with
      | none => rfl
      | some turns =>
          cases turns with
          | nil => rfl
          | cons turn rest => exact absurd known (absent turn rest)
    refine ⟨by rw [empty]; rfl, fun other => ?_⟩
    by_cases own : other = name
    · rw [if_pos own, own, empty]
      rfl
    · rw [if_neg own]

end Script

namespace World

/-- What the scripts of a world make of the next attempts of an operation. -/
def attempts (world : World Int) (name : String) : Attempts := fun number =>
  (((world.operations.turnsOf name)[number]?).getD {}).outcome.getD (.ok world.operationResult)

/-- Worlds whose operations give a certain result when their scripts give none, and which write no
ledger. -/
def view (result : Value) : HostView (World Int) where
  Ready world := world.operationResult = result ∧
    ∀ emitter, world.emitter = some emitter → emitter.ledger = none
  limiter := World.limiter
  attempts := World.attempts
  pauses _ := .ok ()

/-- Two worlds with the same scripts and the same limiter, which both write no ledger if the first
does not. -/
structure Alike (world next : World Int) : Prop where
  limiter : next.limiter = world.limiter
  operations : next.operations = world.operations
  operationResult : next.operationResult = world.operationResult
  unwritten : (∀ emitter, world.emitter = some emitter → emitter.ledger = none) →
    ∀ emitter, next.emitter = some emitter → emitter.ledger = none

variable {result : Value} {world next : World Int}

theorem Alike.shows (alike : Alike world next) (ready : (view result).Ready world) :
    (view result).Shows world.limiter world.attempts next where
  ready := ⟨alike.operationResult.trans ready.1, alike.unwritten ready.2⟩
  limiter := alike.limiter
  attempts := by
    funext name number
    show next.attempts name number = world.attempts name number
    rw [attempts, attempts, alike.operations, alike.operationResult]

theorem emit_record (ready : (view result).Ready world) (now : Int) (kind : SignalKind)
    {payload : List (Value × Value)}
    (texts : ∃ entries : Record, .map payload = Value.record entries) :
    Alike world (world.emit now kind payload).1 ∧ (world.emit now kind payload).2 = .ok () := by
  unfold emit
  cases held : world.emitter with
  | none => exact ⟨⟨rfl, rfl, rfl, id⟩, rfl⟩
  | some emitter =>
      obtain ⟨entries, same⟩ := texts
      obtain ⟨after, signal, unwritten, published⟩ := Emitter.publish_record (ready.2 emitter held)
        world.files (world.calendar now) kind entries
      simp only [same, published]
      refine ⟨⟨rfl, rfl, rfl, ?_⟩, trivial⟩
      rintro _ _ ⟨⟩
      exact unwritten

theorem Alike.idle (alike : Alike world next) (ready : (view result).Ready world) (name : String) :
    (view result).Shows ((view result).limiter world)
      (Function.update ((view result).attempts world) name ((view result).attempts world name))
      next := by
  rw [Function.update_eq_self]
  exact alike.shows ready

theorem callback_ordinary {mode : CallbackMode} {failure laterFailure fault : Failure}
    (first : failure.isOrdinary = true) (later : laterFailure.isOrdinary = true)
    (fails : callback mode failure laterFailure = .error fault) : fault.isOrdinary = true := by
  cases mode with
  | fails => cases fails; exact first
  | failsLater => cases fails; exact later
  | absent => cases fails
  | records => cases fails

theorem pauseFor_answers (ready : (view result).Ready world) (name : String) (now millis : Int) :
    (view result).Answers name (.pause millis) world
      (World.host.answer (.pause millis) now world) := by
  refine .later (Alike.idle ?_ ready name) fun _ other otherReady => ⟨?_, rfl⟩
  · cases recorded : world.recordsPauses with
    | true => exact ⟨rfl, rfl, rfl, id⟩
    | false => exact ⟨rfl, rfl, rfl, id⟩
  · exact Alike.shows ⟨rfl, rfl, rfl, id⟩ otherReady

theorem after_answers {request : Request} {name : String} {begun : World Int}
    (shows : (view result).Shows ((view result).limiter world)
      (Function.update ((view result).attempts world) name
        (((view result).attempts world name).after request)) begun)
    {finish : Int → World Int → World Int × request.Reply}
    (finishes : ∀ woken other, (view result).Ready other →
      (view result).Shows ((view result).limiter other) ((view result).attempts other)
          (finish woken other).1 ∧
        request.Fits (view result).pauses ((view result).attempts world name)
          (finish woken other).2)
    (delay : Option Int) (now : Int) :
    (view result).Answers name request world (World.after delay now begun finish) := by
  cases delay with
  | some delay => exact .later shows finishes
  | none =>
      obtain ⟨ended, fits⟩ := finishes now begun shows.ready
      rw [shows.limiter, shows.attempts] at ended
      exact .now ended fits

theorem finishTurn_alike (operation : String) (turn : Turn) (now : Int) (world : World Int) :
    Alike world (finishTurn operation turn now world).1 ∧
      (finishTurn operation turn now world).2 = turn.outcome.getD (.ok world.operationResult) := by
  unfold finishTurn
  cases turn.outcome.getD (.ok world.operationResult) with
  | ok value => exact ⟨⟨rfl, rfl, rfl, id⟩, rfl⟩
  | error failure =>
      refine ⟨?_, rfl⟩
      cases ordinary : failure.isOrdinary with
      | true =>
          simp only [ordinary, if_true]
          exact ⟨rfl, rfl, rfl, id⟩
      | false =>
          simp only [ordinary, Bool.false_eq_true, if_false]
          exact ⟨rfl, rfl, rfl, id⟩

/-- A world in which an attempt has started leaves only the rest of the operation's attempts. -/
theorem started_attempts (world : World Int) (name : String) (now : Int) :
    attempts { world.traced now (.started name) with
        operations := (world.operations.next name).2 } =
      Function.update world.attempts name (world.attempts name).rest := by
  obtain ⟨-, others⟩ := world.operations.next_eq name
  funext other number
  show (((Script.turnsOf (world.operations.next name).2 other)[number]?).getD {}).outcome.getD
    (.ok world.operationResult) = _
  rw [others other]
  by_cases own : other = name
  · subst own
    rw [if_pos rfl, Function.update_self, List.getElem?_drop, Nat.add_comm]
    rfl
  · rw [if_neg own, Function.update_of_ne own]
    rfl

theorem perform_answers (ready : (view result).Ready world) (name : String) (now : Int) :
    (view result).Answers name (.perform name) world
      (World.host.answer (.perform name) now world) := by
  have shows : (view result).Shows ((view result).limiter world)
      (Function.update ((view result).attempts world) name
        (((view result).attempts world name).after (.perform name)))
      { world.traced now (.started name) with operations := (world.operations.next name).2 } :=
    ⟨ready, rfl, started_attempts world name now⟩
  refine after_answers shows (fun woken other otherReady => ?_)
    (world.operations.next name).1.delay now
  obtain ⟨alike, reply⟩ := finishTurn_alike name (world.operations.next name).1 woken other
  refine ⟨alike.shows otherReady, reply.trans ?_⟩
  rw [(world.operations.next_eq name).1, otherReady.1, ← ready.1]
  rfl

theorem answers (ready : (view result).Ready world) {request : Request} {name : String}
    (own : request.IsFor name) (slot : ∀ scope target, request ≠ .takeSlot scope target)
    (now : Int) :
    (view result).Answers name request world (World.host.answer request now world) := by
  cases request with
  | now | elapsed since | log record | beginCount | countSettled number =>
      refine .now (Alike.idle ?_ ready name) trivial
      exact ⟨rfl, rfl, rfl, id⟩
  | pause millis => exact pauseFor_answers ready name now millis
  | emit kind payload =>
      obtain ⟨alike, emitted⟩ := emit_record ready now kind own
      exact .now (alike.idle ready name) emitted
  | takeSlot scope target => exact absurd rfl (slot scope target)
  | observe failure details =>
      refine .now (Alike.idle ?_ ready name) fun _ fails => callback_ordinary rfl rfl fails
      exact ⟨rfl, rfl, rfl, id⟩
  | progress completed total =>
      refine .now (Alike.idle ?_ ready name) fun _ fails => callback_ordinary rfl rfl fails
      exact ⟨rfl, rfl, rfl, id⟩
  | perform operation =>
      obtain rfl : operation = name := own
      exact perform_answers ready operation now
  | _ => exact own.elim

theorem takeSlot_refused (ready : (view result).Ready world) {now delay : Int} {scope : Scope}
    {limiter : Limiter Int} (target : String) (late : 0 < delay)
    (refused : world.limiter.poll scope now now = (limiter, .ok (some delay))) :
    ∃ next pause, World.host.answer (.takeSlot scope target) now world = (next, .putOff pause) ∧
      0 < pause ∧ (view result).Shows limiter ((view result).attempts world) next := by
  obtain ⟨logged, payload, ⟨records, rfl⟩, texts, answer⟩ :=
    RateLimit.takeSlot_announced target refused
  have loggedReady : (view result).Ready (World.log { world with limiter } records) := ready
  have announced := emit_record loggedReady now .rateLimited texts
  rcases emitted : World.emit (World.log { world with limiter } records) now .rateLimited payload
    with ⟨next, outcome⟩
  rw [emitted] at announced answer
  obtain ⟨alike, rfl⟩ := announced
  have shows := alike.shows loggedReady
  refine ⟨_, _, answer, ?_, ⟨shows.ready, shows.limiter, shows.attempts⟩⟩
  split
  · omega
  · exact late

/-- A simulated world without a ledger serves programs, whatever its scripts, its limiter and its
callbacks are. -/
theorem serves (result : Value) : (World.host : Host (World Int)).Serves (view result) where
  ordinary _ _ := nofun
  answers ready own slot := answers ready own slot _
  grants target ready granted :=
    ⟨_, RateLimit.takeSlot_of_granted target granted, ready, rfl, rfl⟩
  refuses target ready late refused := takeSlot_refused ready target late refused

end World

end Simulation

end WebHarvest
