import Mathlib.Data.Multiset.AddSub
import WebHarvest.Proofs.Program.Schedule
import WebHarvest.Proofs.RateLimit.Callers
import WebHarvest.Simulation.World

/-!
# Calls that the scheduler runs

When calls run together in the simulated world, they are a crowd of its limiter: each wake-up of the
scheduler is a row of steps of the crowd. The timing is exact when no sleep is cut short.
-/

set_option autoImplicit false

namespace WebHarvest

namespace RateLimit

open Simulation (World)

/-- Whatever is emitted, the limiter and its sleeps stay as they are. -/
theorem emit_limiter (world : World Int) (now : Int) (kind : SignalKind)
    (payload : List (Value × Value)) :
    (world.emit now kind payload).1.limiter = world.limiter ∧
      (world.emit now kind payload).1.skew = world.skew := by
  cases held : world.emitter with
  | none => simp only [World.emit, held, and_self]
  | some emitter =>
      rcases published : emitter.publish world.files (world.calendar now) kind (.map payload) with
        ⟨⟨emitter, files⟩, outcome⟩
      cases outcome with
      | error failure => simp only [World.emit, held, published, and_self]
      | ok signal =>
          simp only [World.emit, held, published]
          exact ⟨rfl, rfl⟩

theorem takeSlot_of_granted {world : World Int} {now : Int} {scope : Scope}
    {limiter : Limiter Int} (target : String)
    (granted : world.limiter.poll scope now now = (limiter, .ok none)) :
    World.host.answer (.takeSlot scope target) now world =
      ({ world with limiter }, .now (.ok ())) := by
  show world.takeSlot now scope target = _
  simp only [World.takeSlot, TimeScale.reading, granted]
  rfl

/-- When a scope has no slot, this is logged and announced, and then the request is put off. -/
theorem takeSlot_announced {world : World Int} {now delay : Int} {scope : Scope}
    {limiter : Limiter Int} (target : String)
    (refused : world.limiter.poll scope now now = (limiter, .ok (some delay))) :
    ∃ logged payload,
      (∃ records, logged = World.log { world with limiter } records) ∧
      (∃ entries : Record, .map payload = Value.record entries) ∧
      World.host.answer (.takeSlot scope target) now world =
        match logged.emit now .rateLimited payload with
        | (next, .error failure) => (next, .now (.error failure))
        | (next, .ok ()) =>
            (next.withEvents fun events => { events with sleeps := events.sleeps ++ [delay] },
              .putOff (if next.skew < delay then delay - next.skew else delay)) := by
  have answer : World.host.answer (.takeSlot scope target) now world =
      world.takeSlot now scope target := rfl
  rw [answer, World.takeSlot]
  simp only [TimeScale.reading, refused]
  generalize noted : World.log { world with limiter } _ = logged
  refine ⟨logged, _, ⟨_, noted.symm⟩, ⟨[("scope", .text scope.name), ("url", .text target),
    ("wait_ms", .int (TimeScale.millis delay))], rfl⟩, ?_⟩
  simp only [List.map_cons, List.map_nil]
  generalize World.emit logged now .rateLimited _ = emitted
  obtain ⟨next, failure | announced⟩ := emitted
  · rfl
  · rfl

/-- A request that is refused is put off for the whole delay if no sleep is cut short, unless this
cannot be announced. -/
theorem takeSlot_of_refused {world : World Int} {now delay : Int} {scope : Scope}
    {limiter : Limiter Int} (target : String)
    (refused : world.limiter.poll scope now now = (limiter, .ok (some delay))) :
    ∃ next : World Int, next.limiter = limiter ∧ next.skew = world.skew ∧
      ((∃ failure, World.host.answer (.takeSlot scope target) now world =
          (next, .now (.error failure))) ∨
        ∃ pause, (world.skew = 0 → pause = delay) ∧
          World.host.answer (.takeSlot scope target) now world = (next, .putOff pause)) := by
  obtain ⟨logged, payload, ⟨records, rfl⟩, -, answer⟩ := takeSlot_announced target refused
  obtain ⟨keepsLimiter, keepsSkew⟩ :=
    emit_limiter (World.log { world with limiter } records) now .rateLimited payload
  rcases emitted : World.emit (World.log { world with limiter } records) now .rateLimited payload
    with ⟨next, outcome⟩
  rw [emitted] at keepsLimiter keepsSkew answer
  cases outcome with
  | error failure => exact ⟨next, keepsLimiter, keepsSkew, Or.inl ⟨failure, answer⟩⟩
  | ok =>
      refine ⟨_, ?_, ?_, Or.inr ⟨_, ?_, answer⟩⟩
      · exact keepsLimiter
      · exact keepsSkew
      · intro punctual
        have same : next.skew = 0 := keepsSkew.trans punctual
        rw [same, Int.sub_zero, ite_self]

/-- Calls for some targets that run together from a moment on. -/
def together (moment : Moment (World Int)) (targets : List String)
    (stops : Except Failure Unit → Bool) (wakeups : Nat) :
    Schedule (World Int) (Except Failure Unit) :=
  (Schedule.start World.host moment (targets.map fun target => (acquire target).run)).run
    World.host stops wakeups

/-- A sleeper that is a caller of a crowd. -/
structure Sleeps (timing : Timing) (targets : List String) (caller : Caller Int)
    (sleeper : Sleeper (World Int) (Except Failure Unit)) : Prop where
  target : targets[sleeper.task]? = some caller.target
  program : ∃ scopes, caller.program = passing caller.target scopes
  wakes : ∀ now state, sleeper.wakeUp now state = (state, caller.program)
  due : timing = .exact → caller.due = sleeper.wake

namespace Crowd

/-- A schedule of calls for some targets has a crowd: the callers are the sleepers, and the returns
are the calls that ended without a failure. -/
structure Follows (timing : Timing) (targets : List String) (crowd : Crowd Int)
    (schedule : Schedule (World Int) (Except Failure Unit)) : Prop where
  clock : crowd.clock = schedule.now
  limiter : crowd.limiter = schedule.state.limiter
  callers : Multiset.Rel (Sleeps timing targets) crowd.callers schedule.sleepers
  returns : crowd.returns.map (fun call => some call.1) =
    (schedule.finished.filter (·.2.isOk)).map fun ended => targets[ended.1]?
  alone : schedule.strays = []
  numbered : (schedule.sleepers.map (·.registration)).Nodup
  below : ∀ sleeper ∈ schedule.sleepers, sleeper.registration < schedule.registered
  patient : timing = .exact → schedule.state.skew = 0
  ahead : timing = .exact → ∀ sleeper ∈ schedule.sleepers, schedule.now ≤ sleeper.wake

variable {config : RateLimitConfig} {timing : Timing} {targets : List String} {crowd : Crowd Int}
variable {schedule : Schedule (World Int) (Except Failure Unit)}

namespace Follows

theorem answered (follows : Follows timing targets crowd schedule) {world : World Int}
    {limiter : Limiter Int} (holds : world.limiter = limiter)
    (skew : world.skew = schedule.state.skew) :
    Follows timing targets { crowd with limiter } { schedule with state := world } :=
  { follows with
    limiter := holds.symm
    patient := fun exact => skew.trans (follows.patient exact) }

theorem returned (follows : Follows timing targets crowd schedule) {task : Nat} {target : String}
    (named : targets[task]? = some target) :
    Follows timing targets { crowd with returns := crowd.returns ++ [(target, crowd.clock)] }
      { schedule with finished := schedule.finished ++ [(task, .ok ())] } :=
  { follows with
    returns := by
      rw [List.map_append, follows.returns, List.filter_append, List.map_append]
      simp [Except.isOk, Except.toBool, named] }

theorem failed (follows : Follows timing targets crowd schedule) (task : Nat) (failure : Failure) :
    Follows timing targets crowd
      { schedule with finished := schedule.finished ++ [(task, .error failure)] } :=
  { follows with
    returns := by
      rw [follows.returns, List.filter_append, List.map_append]
      simp [Except.isOk, Except.toBool] }

theorem asleep (follows : Follows timing targets crowd schedule)
    {before after : List (Caller Int)} (others : crowd.callers = before ++ after)
    {caller : Caller Int} {sleeper : Sleeper (World Int) (Except Failure Unit)}
    (sleeps : Sleeps timing targets caller sleeper)
    (registered : sleeper.registration = schedule.registered)
    (ahead : timing = .exact → schedule.now ≤ sleeper.wake) :
    Follows timing targets { crowd with callers := before ++ caller :: after }
      { schedule with
        registered := schedule.registered + 1
        sleepers := schedule.sleepers ++ [sleeper] } :=
  { follows with
    callers := by
      have callers : ((before ++ caller :: after : List (Caller Int)) : Multiset (Caller Int)) =
          caller ::ₘ (crowd.callers : Multiset (Caller Int)) := by
        rw [others]
        exact Multiset.coe_eq_coe.mpr List.perm_middle
      have sleepers : ((schedule.sleepers ++ [sleeper] : List _) : Multiset _) =
          sleeper ::ₘ (schedule.sleepers : Multiset _) :=
        Multiset.coe_eq_coe.mpr (List.perm_append_singleton sleeper schedule.sleepers)
      simp only [callers, sleepers]
      exact .cons sleeps follows.callers
    numbered := by
      rw [List.map_append, List.nodup_append]
      refine ⟨follows.numbered, List.nodup_singleton _, ?_⟩
      intro number isNumber other isOther
      obtain rfl := List.mem_singleton.mp isOther
      obtain ⟨one, member, rfl⟩ := List.mem_map.mp isNumber
      have below : one.registration < sleeper.registration := by
        rw [registered]
        exact follows.below one member
      exact Nat.ne_of_lt below
    below := by
      simp only [List.forall_mem_append, List.forall_mem_singleton]
      exact ⟨fun one member => Nat.lt_succ_of_lt (follows.below one member), by omega⟩
    ahead := by
      intro exact
      simp only [List.forall_mem_append, List.forall_mem_singleton]
      exact ⟨follows.ahead exact, ahead exact⟩ }

theorem passed (follows : Follows timing targets crowd schedule) {now : Int}
    (ahead : timing = .exact → ∀ sleeper ∈ schedule.sleepers, now ≤ sleeper.wake) :
    Follows timing targets { crowd with clock := now } { schedule with now } :=
  { follows with clock := rfl, ahead }

theorem due (follows : Follows timing targets crowd schedule) (exact : timing = .exact)
    {caller : Caller Int} (member : caller ∈ crowd.callers) :
    ∃ sleeper ∈ schedule.sleepers, caller.due = sleeper.wake := by
  obtain ⟨sleeper, isSleeper, sleeps⟩ :=
    Multiset.exists_mem_of_rel_of_mem follows.callers (Multiset.mem_coe.mpr member)
  exact ⟨sleeper, Multiset.mem_coe.mp isSleeper, sleeps.due exact⟩

theorem removed (follows : Follows timing targets crowd schedule)
    {sleeper : Sleeper (World Int) (Except Failure Unit)} (member : sleeper ∈ schedule.sleepers) :
    ∃ before caller after, crowd.callers = before ++ caller :: after ∧
      Sleeps timing targets caller sleeper ∧
      Follows timing targets { crowd with callers := before ++ after }
        { schedule with
          sleepers := schedule.sleepers.filter (·.registration != sleeper.registration) } := by
  obtain ⟨earlier, later, split⟩ := List.append_of_mem member
  have distinct : ∀ other ∈ earlier ++ later, other.registration ≠ sleeper.registration := by
    have numbered := follows.numbered
    rw [split, List.map_append, List.map_cons, List.nodup_middle, ← List.map_append,
      List.nodup_cons] at numbered
    intro other isOther same
    exact numbered.1 (List.mem_map.mpr ⟨other, isOther, same⟩)
  have others : schedule.sleepers.filter (·.registration != sleeper.registration) =
      earlier ++ later := by
    rw [split, List.filter_append, List.filter_cons_of_neg (by simp), ← List.filter_append,
      List.filter_eq_self]
    exact fun other isOther => bne_iff_ne.mpr (distinct other isOther)
  have callers := follows.callers
  rw [split, Multiset.coe_eq_coe.mpr List.perm_middle, ← Multiset.cons_coe] at callers
  obtain ⟨caller, rest, sleeps, sleep, whole⟩ := Multiset.rel_cons_right.mp callers
  have isCaller : caller ∈ crowd.callers := by
    rw [← Multiset.mem_coe, whole]
    exact Multiset.mem_cons_self caller rest
  obtain ⟨before, after, asks⟩ := List.append_of_mem isCaller
  rw [asks, Multiset.coe_eq_coe.mpr List.perm_middle, ← Multiset.cons_coe,
    Multiset.cons_inj_right] at whole
  have remain : List.Sublist
      (schedule.sleepers.filter (·.registration != sleeper.registration)) schedule.sleepers :=
    List.filter_sublist
  refine ⟨before, caller, after, asks, sleeps, { follows with
    callers := ?_
    numbered := follows.numbered.sublist (remain.map _)
    below := fun one isOne => follows.below one (remain.subset isOne)
    ahead := fun exact one isOne => follows.ahead exact one (remain.subset isOne) }⟩
  rw [others, whole]
  exact sleep

end Follows

section Resumed

variable {before after : List (Caller Int)} {target : String} {due : Int} {task : Nat}

/-- A call whose slot is refused has to wait, or fails when this cannot be announced. -/
theorem Run.held_back (run : Run config timing crowd) {scope : Scope} {rest : List Scope}
    {goesOn : Except Failure Unit → Program (Except Failure Unit)}
    (shape : passing target (scope :: rest) = .ask (.takeSlot scope target) goesOn)
    (fails : ∀ failure, goesOn (.error failure) = .done (.error failure))
    (asks : crowd.callers =
      before ++ ⟨target, .ask (.takeSlot scope target) goesOn, due⟩ :: after)
    (punctual : timing = .exact → due = crowd.clock) (named : targets[task]? = some target)
    (follows : Follows timing targets { crowd with callers := before ++ after } schedule)
    {limiter : Limiter Int} {delay : Int} (late : 0 < delay)
    (refused : crowd.limiter.poll scope crowd.clock crowd.clock = (limiter, .ok (some delay))) :
    ∃ next, Run config timing next ∧ Follows timing targets next
      (schedule.resume World.host task (.ask (.takeSlot scope target) goesOn)) := by
  have waits := run.step (.wait before after crowd.clock asks le_rfl
    (fun exact => ⟨punctual exact, rfl⟩) refused)
  have sameClock : crowd.clock = schedule.now := follows.clock
  have sameLimiter : crowd.limiter = schedule.state.limiter := follows.limiter
  rw [sameClock, sameLimiter] at refused
  obtain ⟨world, holds, skew, ⟨failure, answers⟩ | ⟨pause, whole, answers⟩⟩ :=
    takeSlot_of_refused target refused
  · have resumed : schedule.resume World.host task (.ask (.takeSlot scope target) goesOn) =
        Schedule.resume World.host { schedule with state := world }
          task (goesOn (.error failure)) :=
      Schedule.resume_of_now answers task goesOn
    rw [resumed, fails]
    exact ⟨_, waits.step (.leave before after rfl),
      (follows.answered holds skew).failed task failure⟩
  · have resumed :
        schedule.resume World.host task (.ask (.takeSlot scope target) goesOn) = _ :=
      Schedule.resume_of_putOff answers task goesOn
    rw [resumed]
    have sleeps : Sleeps timing targets
        ⟨target, .ask (.takeSlot scope target) goesOn, TimeScale.plus crowd.clock delay⟩
        (schedule.sleeper task pause fun _ state =>
          (state, .ask (.takeSlot scope target) goesOn)) :=
      { target := named
        program := ⟨scope :: rest, shape.symm⟩
        wakes := fun _ _ => rfl
        due := fun exact => by
          rw [sameClock, Moment.sleeper, whole (follows.patient exact)]
          rfl }
    have ahead : timing = .exact → schedule.now ≤ schedule.now + pause := by
      intro exact
      rw [whole (follows.patient exact)]
      exact Int.le_add_of_nonneg_right late.le
    have answered : Follows timing targets { crowd with limiter, callers := before ++ after }
        { schedule with state := world } := follows.answered holds skew
    exact ⟨_, waits, answered.asleep rfl sleeps rfl ahead⟩

/-- A call that goes on takes slots until it returns, fails or has to wait. -/
theorem Run.resume (positive : config.IsPositive) (run : Run config timing crowd)
    {scopes : List Scope}
    (asks : crowd.callers = before ++ ⟨target, passing target scopes, due⟩ :: after)
    (punctual : timing = .exact → due = crowd.clock) (named : targets[task]? = some target)
    (follows : Follows timing targets { crowd with callers := before ++ after } schedule) :
    ∃ next, Run config timing next ∧
      Follows timing targets next
        (schedule.resume World.host task (passing target scopes)) := by
  induction scopes generalizing crowd schedule due with
  | nil =>
      exact ⟨_, run.step (.finish before after asks punctual), follows.returned named⟩
  | cons scope rest ih =>
      obtain ⟨goesOn, shape, passes, fails⟩ := passing_cons target scope rest
      rw [shape] at asks ⊢
      obtain ⟨limiter, granted | ⟨delay, late, refused⟩⟩ :=
        (run.kept positive).poll_cases positive scope
      · have taken := run.step (.take before after crowd.clock crowd.clock asks le_rfl le_rfl
          (fun exact => ⟨punctual exact, rfl⟩) granted)
        have sameClock : crowd.clock = schedule.now := follows.clock
        have sameLimiter : crowd.limiter = schedule.state.limiter := follows.limiter
        rw [sameClock, sameLimiter] at granted
        have resumed : schedule.resume World.host task (.ask (.takeSlot scope target) goesOn) =
            Schedule.resume World.host { schedule with state := { schedule.state with limiter } }
              task (goesOn (.ok ())) :=
          Schedule.resume_of_now (takeSlot_of_granted target granted) task goesOn
        rw [passes] at taken resumed
        rw [resumed]
        exact ih taken rfl (fun _ => rfl) { follows with limiter := rfl }
      · exact run.held_back shape fails asks punctual named follows late refused

end Resumed

/-- The call that is woken first goes on at the time of its wake-up, or later with loose timing. -/
theorem Run.wake (positive : config.IsPositive) (run : Run config timing crowd)
    (follows : Follows timing targets crowd schedule)
    {sleeper : Sleeper (World Int) (Except Failure Unit)} (member : sleeper ∈ schedule.sleepers)
    (first : ∀ other ∈ schedule.sleepers, sleeper.wake ≤ other.wake) :
    ∃ next, Run config timing next ∧
      Follows timing targets next (schedule.wake World.host sleeper) := by
  let now := max schedule.now sleeper.wake
  have ahead : timing = .exact → ∀ other ∈ schedule.sleepers, now ≤ other.wake :=
    fun exact other isOther => max_le (follows.ahead exact other isOther) (first other isOther)
  have forward : crowd.clock ≤ now := by
    rw [follows.clock]
    exact le_max_left _ _
  have punctual : timing = .exact → ∀ caller ∈ crowd.callers, now ≤ caller.due := by
    intro exact caller isCaller
    obtain ⟨other, isOther, due⟩ := follows.due exact isCaller
    rw [due]
    exact ahead exact other isOther
  have passed := run.step (.pass now forward punctual)
  obtain ⟨before, ⟨target, program, due⟩, after, asks, sleeps, others⟩ :=
    (follows.passed ahead).removed member
  obtain ⟨scopes, rfl⟩ : ∃ scopes, program = passing target scopes := sleeps.program
  have woken : schedule.wake World.host sleeper =
      Schedule.resume World.host
        { schedule with
          now
          sleepers := schedule.sleepers.filter (·.registration != sleeper.registration) }
        sleeper.task (passing target scopes) := by
    rw [Schedule.wake, sleeps.wakes]
  have onTime : timing = .exact → due = now := by
    intro exact
    exact (sleeps.due exact).trans (max_eq_right (follows.ahead exact sleeper member)).symm
  rw [woken]
  exact passed.resume positive asks onTime sleeps.target others

theorem Run.schedule_step (positive : config.IsPositive) (run : Run config timing crowd)
    (follows : Follows timing targets crowd schedule)
    {next : Schedule (World Int) (Except Failure Unit)}
    (steps : schedule.step World.host = some next) :
    ∃ after, Run config timing after ∧ Follows timing targets after next := by
  obtain ⟨sleeper, found, woken⟩ := Option.map_eq_some_iff.mp steps
  rw [follows.alone] at woken
  obtain ⟨member, first⟩ := Sleeper.earliest_some found
  obtain rfl : schedule.wake World.host sleeper = next := woken
  exact run.wake positive follows member first

theorem Run.schedule_run (positive : config.IsPositive) (run : Run config timing crowd)
    (follows : Follows timing targets crowd schedule) (stops : Except Failure Unit → Bool)
    (wakeups : Nat) :
    ∃ after, Run config timing after ∧
      Follows timing targets after (schedule.run World.host stops wakeups) := by
  induction wakeups generalizing crowd schedule with
  | zero => exact ⟨crowd, run, follows⟩
  | succ wakeups ih =>
      rw [Schedule.run]
      split
      · exact ⟨crowd, run, follows⟩
      · cases steps : schedule.step World.host with
        | none => exact ⟨crowd, run, follows⟩
        | some next =>
            obtain ⟨after, afterRun, afterFollows⟩ := run.schedule_step positive follows steps
            exact ih afterRun afterFollows

/-- Calls that start at one time arrive in the crowd one after the other. -/
theorem Run.schedule_start (positive : config.IsPositive) (run : Run config timing crowd)
    (follows : Follows timing targets crowd schedule) (calls : List (String × Nat))
    (named : ∀ call ∈ calls, targets[call.2]? = some call.1) :
    ∃ after, Run config timing after ∧
      Follows timing targets after (calls.foldl
        (fun schedule call => schedule.resume World.host call.2 (acquire call.1).run)
        schedule) := by
  induction calls generalizing crowd schedule with
  | nil => exact ⟨crowd, run, follows⟩
  | cons call rest ih =>
      have arrived := run.step (.arrive call.1)
      have alone :
          Follows timing targets { crowd with callers := crowd.callers ++ [] } schedule := by
        rw [List.append_nil]
        exact follows
      obtain ⟨after, afterRun, afterFollows⟩ :=
        arrived.resume positive rfl (fun _ => rfl) (named call List.mem_cons_self) alone
      exact ih afterRun afterFollows fun other member => named other (List.mem_cons_of_mem _ member)

/-- Whatever calls run together on a new limiter, in whatever order the scheduler lets them, they
are a crowd of that limiter. -/
theorem Run.of_schedule (positive : config.IsPositive) {moment : Moment (World Int)}
    (fresh : moment.state.limiter = .ofConfig (some config)) (alone : moment.strays = [])
    (punctual : timing = .exact → moment.state.skew = 0) (targets : List String)
    (stops : Except Failure Unit → Bool) (wakeups : Nat) :
    ∃ crowd, Run config timing crowd ∧
      Follows timing targets crowd (together moment targets stops wakeups) := by
  have opened : Run config timing (⟨moment.now, .ofConfig (some config), [], [], []⟩ : Crowd Int) :=
    .start moment.now
  have follows : Follows timing targets
      (⟨moment.now, .ofConfig (some config), [], [], []⟩ : Crowd Int)
      ({ moment with } : Schedule (World Int) (Except Failure Unit)) :=
    { clock := rfl
      limiter := fresh.symm
      callers := .zero
      returns := rfl
      alone := alone
      numbered := List.nodup_nil
      below := fun _ member => by cases member
      patient := punctual
      ahead := fun _ _ member => by cases member }
  obtain ⟨crowd, run, started⟩ := opened.schedule_start positive follows targets.zipIdx
    fun call member => List.mem_zipIdx_iff_getElem?.mp member
  rw [together, Schedule.start, List.zipIdx_map, List.foldl_map]
  exact run.schedule_run positive started stops wakeups

/-- However the scheduler lets calls run, the limiter of the world keeps to its quotas. -/
theorem limiter_kept (positive : config.IsPositive) {moment : Moment (World Int)}
    (fresh : moment.state.limiter = .ofConfig (some config)) (alone : moment.strays = [])
    (targets : List String) (stops : Except Failure Unit → Bool) (wakeups : Nat) :
    ∃ history, (together moment targets stops wakeups).state.limiter.Keeps config history
      (together moment targets stops wakeups).now := by
  have loose : Timing.loose = .exact → moment.state.skew = 0 := nofun
  obtain ⟨crowd, run, follows⟩ := Run.of_schedule positive fresh alone loose targets stops wakeups
  refine ⟨stampsOf crowd.stamps, ?_⟩
  rw [← follows.limiter, ← follows.clock]
  exact run.kept positive

end Crowd

end RateLimit

end WebHarvest
