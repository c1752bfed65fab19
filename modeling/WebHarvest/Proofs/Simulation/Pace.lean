import WebHarvest.Proofs.Program.Gauge
import WebHarvest.Proofs.Simulation.Service

/-!
# The simulated world keeps time

A simulated world without a ledger keeps time when its operations fail in ordinary ways only.
Only pauses and operations take time in it.
-/

set_option autoImplicit false

namespace WebHarvest.Simulation.World

def gauge : Gauge (World Int) where
  Ready world :=
    (∀ emitter, world.emitter = some emitter → emitter.ledger = none) ∧
      ∀ name number failure, world.attempts name number = .error failure →
        failure.isOrdinary = true
  limiter := World.limiter
  counts := World.settled
  atOnce
    | .pause _ | .perform _ => False
    | _ => True

variable {world next : World Int}

theorem attempts_ordinary
    (plain : ∀ entry ∈ world.operations, ∀ turn ∈ entry.2, ∀ failure,
      turn.outcome = some (.error failure) → failure.isOrdinary = true)
    (name : String) (number : Nat) (failure : Failure)
    (fails : world.attempts name number = .error failure) : failure.isOrdinary = true := by
  rw [attempts, Script.turnsOf] at fails
  cases found : world.operations.find? (·.1 == name) with
  | none =>
      rw [found] at fails
      cases fails
  | some entry =>
      rw [found] at fails
      cases given : entry.2[number]? with
      | none =>
          rw [Option.map_some, Option.getD_some, given] at fails
          cases fails
      | some turn =>
          rw [Option.map_some, Option.getD_some, given, Option.getD_some] at fails
          refine plain entry (List.mem_of_find?_eq_some found) turn (List.mem_of_getElem? given)
            failure ?_
          cases outcome : turn.outcome with
          | none =>
              rw [outcome] at fails
              cases fails
          | some result =>
              rw [outcome] at fails
              exact congrArg some fails

theorem emit_settled (world : World Int) (now : Int) (kind : SignalKind)
    (payload : List (Value × Value)) : (world.emit now kind payload).1.settled = world.settled := by
  cases held : world.emitter with
  | none => simp only [emit, held]
  | some emitter =>
      rcases published : emitter.publish world.files (world.calendar now) kind (.map payload) with
        ⟨⟨emitter, files⟩, outcome⟩
      cases outcome with
      | error failure => simp only [emit, held, published]
      | ok signal =>
          simp only [emit, held, published]
          rfl

theorem Alike.kept (alike : Alike world next) (ready : gauge.Ready world)
    (settled : next.settled = world.settled) : gauge.Kept world next where
  ready := by
    have viewed : (view world.operationResult).Ready world := ⟨rfl, ready.1⟩
    have shows := alike.shows viewed
    have same : next.attempts = world.attempts := shows.attempts
    refine ⟨shows.ready.2, ?_⟩
    rw [same]
    exact ready.2
  limiter := alike.limiter
  counts := settled

theorem finishTurn_settled (operation : String) (turn : Turn) (now : Int) (world : World Int) :
    (finishTurn operation turn now world).1.settled = world.settled := by
  unfold finishTurn
  cases turn.outcome.getD (.ok world.operationResult) with
  | ok value => rfl
  | error failure =>
      simp only
      split
      · rfl
      · rfl

theorem perform_kept (ready : gauge.Ready world) (operation : String) (now : Int) :
    gauge.Answers (.perform operation) now world
      (World.host.answer (.perform operation) now world) := by
  let turn := (world.operations.next operation).1
  let begun : World Int :=
    { world.traced now (.started operation) with
      operations := (world.operations.next operation).2 }
  have begunReady : gauge.Ready begun := by
    refine ⟨ready.1, fun name number failure fails => ?_⟩
    rw [started_attempts world operation now] at fails
    by_cases own : name = operation
    · subst own
      rw [Function.update_self] at fails
      exact ready.2 name (number + 1) failure fails
    · rw [Function.update_of_ne own] at fails
      exact ready.2 name number failure fails
  have finishes : ∀ woken other, gauge.Ready other →
      gauge.Kept other (finishTurn operation turn woken other).1 ∧
        Request.Sound woken (.perform operation) (finishTurn operation turn woken other).2 := by
    intro woken other otherReady
    obtain ⟨alike, reply⟩ := finishTurn_alike operation turn woken other
    refine ⟨alike.kept otherReady (finishTurn_settled operation turn woken other), ?_⟩
    intro failure fails
    rw [reply] at fails
    refine ready.2 operation 0 failure ?_
    cases given : turn.outcome with
    | none =>
        rw [given] at fails
        cases fails
    | some outcome =>
        rw [given] at fails
        rw [attempts, ← (world.operations.next_eq operation).1, given]
        exact fails
  show gauge.Answers (.perform operation) now world
    (World.after turn.delay now begun (finishTurn operation turn))
  cases turn.delay with
  | some delay => exact .later id ⟨begunReady, rfl, rfl⟩ finishes
  | none =>
      obtain ⟨kept, sound⟩ := finishes now begun begunReady
      exact .now kept.ready kept.limiter kept.counts sound

theorem keepsTime : (World.host : Host (World Int)).KeepsTime gauge where
  prompt {request} isPrompt := by
    cases request with
    | pause => cases isPrompt
    | perform => cases isPrompt
    | _ => exact trivial
  answers {request now world} ready served slot := by
    obtain ⟨name, own⟩ := served
    cases request with
    | now => exact .now ready rfl rfl rfl
    | elapsed since => exact .now ready rfl rfl rfl
    | log record => exact .now ready rfl rfl trivial
    | beginCount => exact .now ready rfl ⟨rfl, rfl⟩ trivial
    | countSettled number => exact .now ready rfl ⟨rfl, rfl⟩ trivial
    | pause millis =>
        refine .later id ?_ fun _ other otherReady => ⟨⟨otherReady, rfl, rfl⟩, nofun⟩
        cases recorded : world.recordsPauses with
        | true => exact ⟨ready, rfl, rfl⟩
        | false => exact ⟨ready, rfl, rfl⟩
    | emit kind payload =>
        have viewed : (view world.operationResult).Ready world := ⟨rfl, ready.1⟩
        obtain ⟨alike, emitted⟩ := emit_record viewed now kind own
        have kept := alike.kept ready (emit_settled world now kind payload)
        refine .now kept.ready kept.limiter kept.counts ⟨fun _ => emitted, ?_⟩
        intro failure fails
        cases emitted.symm.trans fails
    | takeSlot scope target => exact absurd rfl (slot scope target)
    | observe failure details =>
        exact .now ready rfl rfl fun _ fails => callback_ordinary rfl rfl fails
    | progress completed total =>
        exact .now ready rfl rfl fun _ fails => callback_ordinary rfl rfl fails
    | perform operation => exact perform_kept ready operation now
    | _ => exact own.elim
  grants {scope now world limiter} target ready granted :=
    ⟨_, RateLimit.takeSlot_of_granted target granted, ready, rfl, rfl⟩
  refuses {scope now world limiter delay} target ready late refused := by
    obtain ⟨logged, payload, ⟨records, rfl⟩, texts, answer⟩ :=
      RateLimit.takeSlot_announced target refused
    have loggedReady : gauge.Ready (World.log { world with limiter } records) := ready
    have viewed : (view world.operationResult).Ready (World.log { world with limiter } records) :=
      ⟨rfl, ready.1⟩
    have announced := emit_record viewed now .rateLimited texts
    have settled := emit_settled (World.log { world with limiter } records) now .rateLimited payload
    rcases emitted : World.emit (World.log { world with limiter } records) now .rateLimited payload
      with ⟨next, outcome⟩
    rw [emitted] at announced settled answer
    obtain ⟨alike, rfl⟩ := announced
    have kept := alike.kept loggedReady settled
    refine ⟨_, ?_, ?_, ?_, Or.inl ⟨_, answer, ?_⟩⟩
    · exact kept.ready
    · exact kept.limiter
    · exact kept.counts
    · split
      · omega
      · exact late

end WebHarvest.Simulation.World
