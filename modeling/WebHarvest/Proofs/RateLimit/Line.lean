import WebHarvest.Proofs.Simulation.Slots

/-!
# Calls that stand in line

Calls that come together at a scope which nobody else uses are let through in the order in which
they came, each at its turn. Those that find the scope full all wake up together when the oldest
stamp that counts expires. Whoever then finds room is the first of them; the others go back to
sleep, still in order. With every such round a call is let through, or fewer stamps count.
-/

set_option autoImplicit false

namespace WebHarvest.RateLimit

open Simulation (World)

/-- The times at which calls that come together are let through, one after the other. -/
def line (quota : Nat) (length : Int) (stamps : List Int) (now : Int) : Nat → List Int
  | 0 => []
  | calls + 1 =>
      let time := turn quota length stamps now
      time :: line quota length (stamps ++ [time]) now calls

section Times

variable {quota : Nat} {length : Int} {stamps : List Int} {now later : Int}

/-- The times do not depend on when the calls ask, as long as none of them comes too late. -/
theorem line_of_between (positive : 0 < quota)
    (sorted : (stamps ++ [turn quota length stamps now]).Pairwise (· ≤ ·)) (after : now ≤ later)
    (before : later ≤ turn quota length stamps now) (calls : Nat) :
    line quota length stamps later calls = line quota length stamps now calls := by
  induction calls generalizing stamps with
  | zero => rfl
  | succ calls ih =>
      have next : turn quota length stamps now ≤
          turn quota length (stamps ++ [turn quota length stamps now]) now :=
        turn_le_turn_append positive sorted now
      rw [line, line, turn_of_between after before, ih _ (before.trans next)]
      refine pairwise_concat sorted fun stamp member => ?_
      rcases List.mem_append.mp member with old | new
      · exact ((List.pairwise_append.mp sorted).2.2 stamp old _ List.mem_cons_self).trans next
      · rwa [List.mem_singleton.mp new]

end Times

/-- The program that passes some scopes in turn and then tells the time. -/
def calling (target : String) (scopes : List Scope) : Program (Except Failure Int) :=
  (do (scopes.forM fun scope => Action.takeSlot scope target); Action.now : Action Int).run

theorem calling_nil (target : String) :
    calling target [] = .ask .now fun time => .done (.ok time) := rfl

theorem calling_cons (target : String) (scope : Scope) (scopes : List Scope) :
    ∃ next : Except Failure Unit → Program (Except Failure Int),
      calling target (scope :: scopes) = .ask (.takeSlot scope target) next ∧
        next (.ok ()) = calling target scopes :=
  ⟨_, rfl, rfl⟩

/-- A call that stands in line at a scope. The other scopes on its way let everything through. -/
structure Queued (scope : Scope) (idle : Scope → Prop) where
  task : Nat
  target : String
  before : List Scope
  after : List Scope
  before_idle : ∀ other ∈ before, idle other
  after_idle : ∀ other ∈ after, idle other

def Queued.program {scope : Scope} {idle : Scope → Prop} (call : Queued scope idle) :
    Program (Except Failure Int) :=
  calling call.target (call.before ++ scope :: call.after)

/-- A world whose scope has let through requests at some times. Waits can be announced, and no sleep
is cut short. -/
structure Attended (scope : Scope) (idle : Scope → Prop) (quota : Nat) (length : Int)
    (stamps : List Int) (now : Int) (world : World Int) : Prop where
  window : ∃ window, world.limiter.windowOf scope = some window ∧ window.quota = quota ∧
    window.length = length ∧ window.Remembers stamps now
  free : ∀ other, idle other → world.limiter.windowOf other = none
  punctual : world.skew = 0
  announced : world.announces = .ok ()

section Advance

variable {scope : Scope} {idle : Scope → Prop} {quota : Nat} {length : Int} {stamps : List Int}
variable {now : Int} {world : World Int}

namespace Attended

theorem sorted (attended : Attended scope idle quota length stamps now world) :
    stamps.Pairwise (· ≤ ·) := by
  obtain ⟨_, -, -, -, remembers⟩ := attended.window
  exact remembers.sorted

theorem past (attended : Attended scope idle quota length stamps now world) :
    ∀ stamp ∈ stamps, stamp ≤ now := by
  obtain ⟨_, -, -, -, remembers⟩ := attended.window
  exact remembers.past

theorem later (attended : Attended scope idle quota length stamps now world) {after : Int}
    (ordered : now ≤ after) : Attended scope idle quota length stamps after world :=
  { attended with
    window := by
      obtain ⟨window, held, quota, length, remembers⟩ := attended.window
      exact ⟨window, held, quota, length, remembers.later ordered⟩ }

/-- What a request for a slot of the scope leaves behind. -/
theorem asked (attended : Attended scope idle quota length stamps now world) {next : World Int}
    (settled : world.Settled next) {window : SlidingWindow Int} {after : List Int}
    (replaced : next.limiter.windowOf =
      Function.update world.limiter.windowOf scope (some window))
    (isQuota : window.quota = quota) (isLength : window.length = length)
    (remembers : window.Remembers after now) :
    Attended scope idle quota length after now next where
  window := ⟨window, by rw [replaced, Function.update_self], isQuota, isLength, remembers⟩
  free other isIdle := by
    have differs : other ≠ scope := by
      rintro rfl
      obtain ⟨_, held, -⟩ := attended.window
      exact absurd (held.symm.trans (attended.free other isIdle)) nofun
    rw [replaced, Function.update_of_ne differs]
    exact attended.free other isIdle
  punctual := settled.skew.trans attended.punctual
  announced := settled.announces.trans attended.announced

/-- Scopes that let everything through leave no trace. -/
theorem pass_idle (attended : Attended scope idle quota length stamps now world)
    (target : String) {scopes : List Scope} (idles : ∀ other ∈ scopes, idle other)
    (rest : List Scope) :
    ∃ next, (calling target (scopes ++ rest)).advance World.host now world =
        (calling target rest).advance World.host now next ∧
      Attended scope idle quota length stamps now next := by
  induction scopes generalizing world with
  | nil => exact ⟨world, rfl, attended⟩
  | cons other scopes ih =>
      obtain ⟨goesOn, shape, passes⟩ := calling_cons target other (scopes ++ rest)
      obtain ⟨state, answer, settled, replaced, -⟩ := world.takeSlot_spec now other target
      have unlimited := attended.free other (idles other List.mem_cons_self)
      rw [unlimited] at answer replaced
      have same : state.limiter.windowOf = world.limiter.windowOf := by
        rw [replaced, ask, ← unlimited, Function.update_eq_self]
      have still : Attended scope idle quota length stamps now state :=
        { window := same ▸ attended.window
          free := same ▸ attended.free
          punctual := settled.skew.trans attended.punctual
          announced := settled.announces.trans attended.announced }
      obtain ⟨next, advances, attendedNext⟩ :=
        ih still fun one isOne => idles one (List.mem_cons_of_mem _ isOne)
      have granted : (Program.ask (.takeSlot other target) goesOn).advance World.host now world =
          (goesOn (.ok ())).advance World.host now state := Program.advance_of_now answer goesOn
      refine ⟨next, ?_, attendedNext⟩
      rw [List.cons_append, shape, granted, passes, advances]

/-- A call whose turn has come is let through and returns. -/
theorem advance_of_turn (attended : Attended scope idle quota length stamps now world)
    (positive : 0 < quota) (due : turn quota length stamps now ≤ now)
    (call : Queued scope idle) :
    ∃ next, call.program.advance World.host now world = (next, .finished (.ok now)) ∧
      Attended scope idle quota length (stamps ++ [now]) now next := by
  obtain ⟨first, reaches, attendedFirst⟩ := attended.pass_idle call.target
    call.before_idle (scope :: call.after)
  obtain ⟨window, held, rfl, rfl, remembers⟩ := attendedFirst.window
  obtain ⟨goesOn, shape, passes⟩ := calling_cons call.target scope call.after
  obtain ⟨state, answer, settled, replaced, -⟩ := first.takeSlot_spec now scope call.target
  rw [held, ask_of_poll (remembers.poll_of_turn positive due now)] at answer replaced
  have taken := attendedFirst.asked settled replaced rfl rfl (remembers.recorded le_rfl)
  obtain ⟨last, returns, attendedLast⟩ := taken.pass_idle call.target
    call.after_idle []
  have granted : (Program.ask (.takeSlot scope call.target) goesOn).advance World.host now first =
      (goesOn (.ok ())).advance World.host now state := Program.advance_of_now answer goesOn
  rw [List.append_nil] at returns
  refine ⟨last, ?_, attendedLast⟩
  rw [Queued.program, reaches, shape, granted, passes, returns, calling_nil]
  rfl

/-- A call that comes before its turn goes to sleep until the next stamp expires, and then asks
again. -/
theorem advance_before_turn (attended : Attended scope idle quota length stamps now world)
    (positive : 0 < quota) (early : now < turn quota length stamps now)
    (call : Queued scope idle) :
    ∃ (next : World Int) (again : Queued scope idle), again.task = call.task ∧
      call.program.advance World.host now world =
        (next, .asleep (nextExpiry length stamps now - now) fun _ state =>
          (state, again.program)) ∧
      Attended scope idle quota length stamps now next := by
  obtain ⟨first, reaches, attendedFirst⟩ := attended.pass_idle call.target
    call.before_idle (scope :: call.after)
  obtain ⟨window, held, rfl, rfl, remembers⟩ := attendedFirst.window
  obtain ⟨goesOn, shape, -⟩ := calling_cons call.target scope call.after
  obtain ⟨state, answer, settled, replaced, -⟩ := first.takeSlot_spec now scope call.target
  rw [held, ask_of_poll (remembers.poll_before_turn positive early now)] at answer replaced
  have told : first.verdict (some (nextExpiry window.length stamps now - now)) =
      .putOff (nextExpiry window.length stamps now - now) := by
    simp only [World.verdict, attendedFirst.announced, attendedFirst.punctual, sub_zero, ite_self]
  rw [told] at answer
  have refused : (Program.ask (.takeSlot scope call.target) goesOn).advance World.host now first =
      (state, .asleep (nextExpiry window.length stamps now - now) fun _ state =>
        (state, .ask (.takeSlot scope call.target) goesOn)) :=
    Program.advance_of_putOff answer goesOn
  refine ⟨state, { call with before := [], before_idle := List.forall_mem_nil _ }, rfl, ?_,
    attendedFirst.asked settled replaced rfl rfl remembers.purged⟩
  rw [Queued.program, reaches, shape, refused]
  exact congrArg (fun program => (state, Pause.asleep _ fun _ state => (state, program))) shape.symm

end Attended

end Advance

section Rounds

variable {scope : Scope} {idle : Scope → Prop} {quota : Nat} {length : Int} {stamps : List Int}
variable {now : Int} {ready late : List (Queued scope idle)}
variable {schedule : Schedule (World Int) (Except Failure Int)}

/-- A sleeper that is a call in line. -/
structure Stands (wake : Int) (call : Queued scope idle)
    (sleeper : Sleeper (World Int) (Except Failure Int)) : Prop where
  task : sleeper.task = call.task
  wake : sleeper.wake = wake
  wakes : ∀ now state, sleeper.wakeUp now state = (state, call.program)

theorem wake_of_stands {wake : Int} {calls : List (Queued scope idle)}
    {sleepers : List (Sleeper (World Int) (Except Failure Int))}
    (stand : List.Forall₂ (Stands wake) calls sleepers)
    {sleeper : Sleeper (World Int) (Except Failure Int)} (member : sleeper ∈ sleepers) :
    sleeper.wake = wake := by
  induction stand with
  | nil => cases member
  | cons stands _ ih =>
      rcases List.mem_cons.mp member with rfl | member
      · exact stands.wake
      · exact ih member

/-- A schedule in the middle of a round: some calls are still to be woken at the time of the round,
others have found the scope full and sleep until the next stamp expires. -/
structure InLine (quota : Nat) (length : Int) (stamps : List Int) (now : Int)
    (ready late : List (Queued scope idle))
    (schedule : Schedule (World Int) (Except Failure Int)) : Prop where
  attended : Attended scope idle quota length stamps now schedule.state
  begun : schedule.now ≤ now
  sleepers : ∃ first rest, schedule.sleepers = first ++ rest ∧
    List.Forall₂ (Stands now) ready first ∧
    List.Forall₂ (Stands (nextExpiry length stamps now)) late rest
  full : late ≠ [] → now < turn quota length stamps now
  ordered : schedule.sleepers.Pairwise (·.registration < ·.registration)
  below : ∀ sleeper ∈ schedule.sleepers, sleeper.registration < schedule.registered
  alone : schedule.strays = []

/-- What the schedule comes to when some tasks are let through in their order, each at its turn. -/
def promise (quota : Nat) (length : Int) (stamps : List Int) (now : Int) (tasks : List Nat)
    (schedule : Schedule (World Int) (Except Failure Int)) : List (Nat × Except Failure Int) :=
  schedule.finished ++ (tasks.zip (line quota length stamps now tasks.length)).map
    fun (task, time) => (task, .ok time)

/-- A call that comes before its turn goes to the end of the line. -/
theorem InLine.putOff (inLine : InLine quota length stamps now ready late schedule)
    (positive : 0 < quota) (onTime : schedule.now = now) (call : Queued scope idle)
    (early : now < turn quota length stamps now) :
    ∃ again : Queued scope idle, again.task = call.task ∧
      InLine quota length stamps now ready (late ++ [again])
        (schedule.resume World.host call.task call.program) ∧
      (schedule.resume World.host call.task call.program).now = now ∧
      (schedule.resume World.host call.task call.program).finished = schedule.finished := by
  obtain ⟨first, rest, split, areReady, areLate⟩ := inLine.sleepers
  obtain ⟨state, again, same, sleeps, attended⟩ :=
    inLine.attended.advance_before_turn positive early call
  rw [← onTime] at sleeps
  let sleeper := schedule.sleeper call.task (nextExpiry length stamps schedule.now - schedule.now)
    fun _ (state : World Int) => (state, again.program)
  have resumed : schedule.resume World.host call.task call.program =
      { schedule with
        state
        registered := schedule.registered + 1
        sleepers := schedule.sleepers ++ [sleeper] } := by
    rw [Schedule.resume, sleeps]
  have stands : Stands (nextExpiry length stamps now) again sleeper :=
    { task := same.symm
      wake := by
        rw [← onTime]
        exact add_sub_cancel _ _
      wakes := fun _ _ => rfl }
  rw [resumed]
  refine ⟨again, same, ?_, onTime, rfl⟩
  exact
    { attended
      begun := inLine.begun
      sleepers := ⟨first, rest ++ [sleeper], by rw [split, List.append_assoc], areReady,
        List.rel_append areLate (.cons stands .nil)⟩
      full := fun _ => early
      ordered := by
        rw [List.pairwise_append]
        refine ⟨inLine.ordered, List.pairwise_singleton _ _, fun other member last isLast => ?_⟩
        rw [List.mem_singleton.mp isLast]
        exact inLine.below other member
      below := by
        simp only [List.forall_mem_append, List.forall_mem_singleton]
        exact ⟨fun other member => Nat.lt_succ_of_lt (inLine.below other member),
          Nat.lt_succ_self _⟩
      alone := inLine.alone }

/-- A call whose turn has come returns. Nobody has been put off before it. -/
theorem InLine.letThrough (inLine : InLine quota length stamps now ready late schedule)
    (positive : 0 < quota) (onTime : schedule.now = now) (call : Queued scope idle)
    (due : turn quota length stamps now ≤ now) :
    late = [] ∧ InLine quota length (stamps ++ [now]) now ready []
        (schedule.resume World.host call.task call.program) ∧
      (schedule.resume World.host call.task call.program).now = now ∧
      (schedule.resume World.host call.task call.program).finished =
        schedule.finished ++ [(call.task, .ok now)] := by
  obtain ⟨first, rest, split, areReady, areLate⟩ := inLine.sleepers
  obtain ⟨state, returns, attended⟩ := inLine.attended.advance_of_turn positive due call
  rw [← onTime] at returns
  have resumed : schedule.resume World.host call.task call.program =
      { schedule with
        state
        finished := schedule.finished ++ [(call.task, .ok schedule.now)] } := by
    rw [Schedule.resume, returns]
  obtain rfl : late = [] := by
    by_contra someone
    exact absurd (inLine.full someone) (not_lt.mpr due)
  cases areLate
  rw [resumed]
  refine ⟨rfl, ?_, onTime, by rw [onTime]⟩
  exact { inLine with
    attended
    sleepers := ⟨first, [], split, areReady, .nil⟩
    full := absurd rfl }

/-- A call that goes on returns, or goes to the end of the line. -/
theorem InLine.serve (inLine : InLine quota length stamps now ready late schedule)
    (positive : 0 < quota) (onTime : schedule.now = now) (call : Queued scope idle) :
    ∃ stampsAfter lateAfter, InLine quota length stampsAfter now ready lateAfter
        (schedule.resume World.host call.task call.program) ∧
      (schedule.resume World.host call.task call.program).now = now ∧
      (stampsAfter = stamps ∧ lateAfter.length = late.length + 1 ∨
        lateAfter.length = late.length) ∧
      ∀ tasks, promise quota length stampsAfter now (lateAfter.map (·.task) ++ tasks)
          (schedule.resume World.host call.task call.program) =
        promise quota length stamps now (late.map (·.task) ++ call.task :: tasks) schedule := by
  rcases lt_or_ge now (turn quota length stamps now) with early | due
  · obtain ⟨again, same, after, stillOnTime, finished⟩ :=
      inLine.putOff positive onTime call early
    refine ⟨stamps, late ++ [again], after, stillOnTime, .inl ⟨rfl, List.length_append⟩,
      fun tasks => ?_⟩
    simp only [promise, finished, List.map_append, List.map_cons, List.map_nil, List.append_assoc,
      List.singleton_append, same]
  · obtain ⟨rfl, after, stillOnTime, finished⟩ := inLine.letThrough positive onTime call due
    have time : turn quota length stamps now = now := le_antisymm due (le_turn _ _ _ _)
    refine ⟨stamps ++ [now], [], after, stillOnTime, .inr rfl, fun tasks => ?_⟩
    simp only [promise, finished, List.map_nil, List.nil_append, List.length_cons, line, time,
      List.zip_cons_cons, List.map_cons, List.append_assoc, List.singleton_append]

/-- Whoever is first in line wakes up first. -/
theorem InLine.wake {call : Queued scope idle}
    (inLine : InLine quota length stamps now (call :: ready) late schedule)
    (positive : 0 < quota) :
    ∃ awake, InLine quota length stamps now ready late awake ∧ awake.now = now ∧
      awake.finished = schedule.finished ∧
      schedule.step World.host = some (awake.resume World.host call.task call.program) := by
  obtain ⟨_, rest, split, areReady, areLate⟩ := inLine.sleepers
  cases areReady with
  | @cons _ sleeper _ others stands areReady =>
      have ordered := inLine.ordered
      rw [split] at ordered
      have least : ∀ other ∈ others ++ rest, sleeper.wake ≤ other.wake := by
        rw [stands.wake]
        intro other member
        rcases List.mem_append.mp member with isReady | isLate
        · exact (wake_of_stands areReady isReady).ge
        · have someone : late ≠ [] := by
            rintro rfl
            cases areLate
            cases isLate
          rw [wake_of_stands areLate isLate]
          exact (lt_nextExpiry inLine.attended.sorted positive (inLine.full someone)).le
      have first : Sleeper.earliest schedule.sleepers = some sleeper := by
        rw [split]
        show Sleeper.earliest ([] ++ sleeper :: (others ++ rest)) = some sleeper
        exact Sleeper.earliest_of_first ordered nofun least
      have remain : schedule.sleepers.filter (·.registration != sleeper.registration) =
          others ++ rest := by
        rw [split]
        show ([] ++ sleeper :: (others ++ rest)).filter _ = [] ++ (others ++ rest)
        exact filter_key_ne Sleeper.registration ordered
      refine ⟨{ schedule with now, sleepers := others ++ rest }, ?_, rfl, rfl, ?_⟩
      · exact
          { attended := inLine.attended
            begun := le_rfl
            sleepers := ⟨others, rest, rfl, areReady, areLate⟩
            full := inLine.full
            ordered := (List.pairwise_cons.mp ordered).2
            below := fun other member => inLine.below other (by rw [split]; exact .tail _ member)
            alone := inLine.alone }
      · rw [Schedule.step, first, inLine.alone]
        simp only [Option.map_some, Sleeper.earliest, Option.filter_none, Schedule.wake, remain,
          stands.wakes, stands.wake, stands.task, max_eq_right inLine.begun, inLine.alone]

/-- When the last call of a round has gone to sleep, the next round begins as soon as a stamp
expires. -/
theorem InLine.next (inLine : InLine quota length stamps now [] late schedule)
    (positive : 0 < quota) (someone : late ≠ []) :
    InLine quota length stamps (nextExpiry length stamps now) late [] schedule ∧
      ∀ tasks, promise quota length stamps (nextExpiry length stamps now) tasks schedule =
        promise quota length stamps now tasks schedule := by
  have attended := inLine.attended
  have early := inLine.full someone
  have later := lt_nextExpiry attended.sorted positive early
  obtain ⟨first, rest, split, areReady, areLate⟩ := inLine.sleepers
  refine ⟨{ inLine with
    attended := attended.later later.le
    begun := inLine.begun.trans later.le
    sleepers := ?_
    full := absurd rfl }, fun tasks => ?_⟩
  · cases areReady
    exact ⟨rest, [], by rw [split, List.nil_append, List.append_nil], areLate, .nil⟩
  · have sorted := pairwise_concat attended.sorted fun stamp member =>
      (attended.past stamp member).trans (le_turn quota length stamps now)
    rw [promise, promise, line_of_between positive sorted later.le
      (nextExpiry_le_turn attended.sorted positive early)]

/-- All calls in line return in the end, in their order, each at its turn. -/
theorem InLine.finishes (inLine : InLine quota length stamps now ready late schedule)
    (positive : 0 < quota) :
    ∃ enough, ∀ wakeups, enough ≤ wakeups →
      (schedule.run World.host (fun _ => false) wakeups).finished =
        promise quota length stamps now (late.map (·.task) ++ ready.map (·.task)) schedule := by
  -- As long as no call returns, fewer stamps count in each round, and fewer calls are left to wake.
  induction calls : late.length + ready.length using Nat.strong_induction_on
    generalizing stamps now ready late schedule with
  | _ calls fewer =>
    induction counted : stamps.countP (fun stamp => decide (now - length < stamp))
      using Nat.strong_induction_on generalizing now ready late schedule with
    | _ counted expired =>
      induction ready generalizing late schedule with
      | nil =>
          cases late with
          | nil =>
              obtain ⟨first, rest, split, areReady, areLate⟩ := inLine.sleepers
              cases areReady
              cases areLate
              have halted : schedule.step World.host = none := by
                rw [Schedule.step, split]
                rfl
              refine ⟨0, fun wakeups _ => ?_⟩
              rw [Schedule.run_of_halted halted]
              simp only [promise, List.map_nil, List.zip_nil_left, List.append_nil]
          | cons call late =>
              have someone := List.cons_ne_nil call late
              obtain ⟨round, kept⟩ := inLine.next positive someone
              have full := full_of_early inLine.attended.sorted positive (inLine.full someone)
              have sooner := countP_nextExpiry_lt inLine.attended.sorted
                (Nat.lt_of_lt_of_le positive full)
              obtain ⟨enough, runs⟩ := expired _ (counted ▸ sooner) round
                ((Nat.add_comm _ _).trans calls) rfl
              refine ⟨enough, fun wakeups most => ?_⟩
              rw [runs wakeups most, kept, List.map_nil, List.nil_append, List.append_nil]
      | cons call ready ih =>
          obtain ⟨awake, woken, onTime, finished, steps⟩ := inLine.wake positive
          obtain ⟨stampsAfter, lateAfter, after, -, counts, kept⟩ :=
            woken.serve positive onTime call
          have goesOn : ∃ enough, ∀ wakeups, enough ≤ wakeups →
              (Schedule.run World.host (fun _ => false) wakeups
                (awake.resume World.host call.task call.program)).finished =
                  promise quota length stampsAfter now
                    (lateAfter.map (·.task) ++ ready.map (·.task))
                    (awake.resume World.host call.task call.program) := by
            rcases counts with ⟨rfl, more⟩ | same
            · refine ih after ?_
              rw [← calls, more, List.length_cons]
              omega
            · refine fewer _ ?_ after rfl
              rw [← calls, same, List.length_cons]
              omega
          obtain ⟨enough, runs⟩ := goesOn
          refine ⟨enough + 1, fun wakeups most => ?_⟩
          obtain ⟨wakeups, rfl⟩ := Nat.exists_eq_add_of_le' (Nat.one_le_of_lt most)
          rw [Schedule.run_of_step steps, runs wakeups (Nat.le_of_succ_le_succ most), kept,
            promise, promise, finished, List.map_cons]

/-- When nobody waits yet, the line begins with the stamps of the scope. -/
theorem InLine.begin {moment : Moment (World Int)} (alone : moment.strays = [])
    (punctual : moment.state.skew = 0) (announced : moment.state.announces = .ok ())
    (free : ∀ other, idle other → moment.state.limiter.windowOf other = none)
    {window : SlidingWindow Int} (held : moment.state.limiter.windowOf scope = some window)
    (sorted : window.stamps.Pairwise (· ≤ ·)) (past : ∀ stamp ∈ window.stamps, stamp ≤ moment.now) :
    @InLine scope idle window.quota window.length window.stamps moment.now [] []
      { moment with } where
  attended :=
    { window := ⟨window, held, rfl, rfl, sorted, past, [], rfl, List.forall_mem_nil _⟩
      free, punctual, announced }
  begun := le_rfl
  sleepers := ⟨[], [], rfl, .nil, .nil⟩
  full := absurd rfl
  ordered := .nil
  below := List.forall_mem_nil _
  alone := alone

/-- Calls that start at one time are the first round. -/
theorem InLine.start (inLine : InLine quota length stamps now [] late schedule)
    (positive : 0 < quota) (onTime : schedule.now = now) (calls : List (Queued scope idle)) :
    ∃ enough, ∀ wakeups, enough ≤ wakeups →
      (Schedule.run World.host (fun _ => false) wakeups
        (calls.foldl (fun schedule call => schedule.resume World.host call.task call.program)
          schedule)).finished =
        promise quota length stamps now (late.map (·.task) ++ calls.map (·.task)) schedule := by
  induction calls generalizing stamps late schedule with
  | nil => exact inLine.finishes positive
  | cons call calls ih =>
      obtain ⟨stampsAfter, lateAfter, after, stillOnTime, -, kept⟩ :=
        inLine.serve positive onTime call
      obtain ⟨enough, runs⟩ := ih after stillOnTime
      refine ⟨enough, fun wakeups most => ?_⟩
      rw [List.foldl_cons, runs wakeups most, kept, List.map_cons]

end Rounds

end WebHarvest.RateLimit
