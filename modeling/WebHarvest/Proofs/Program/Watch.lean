import WebHarvest.Proofs.Program.Coherence
import WebHarvest.Proofs.Program.Reach

/-!
# Watching programs run

Programs that run together from a moment on can be watched on any host: the scene that is watched
comes to the same moment and the same results as the run itself, however many wake-ups there are and
whenever the programs are given up. Its log tells of every program, at any moment, what it has come
to.
-/

set_option autoImplicit false

namespace WebHarvest

namespace Scene

variable {σ α : Type}

/-- Lets one program go on until it ends or has to wait. -/
def follow (host : Host σ) (task : Nat) (others : List (Nat × Program α)) :
    Program α → Scene σ α → Scene σ α
  | .done result, scene => scene.proceed host task others (.done result)
  | .ask request next, scene =>
      match host.answer request scene.now scene.state with
      | (state, .now reply) =>
          follow host task others (next reply)
            (scene.hear task others request next (state, .now reply))
      | (state, .later delay finish) =>
          scene.hear task others request next (state, .later delay finish)
      | (state, .putOff delay) => scene.hear task others request next (state, .putOff delay)

/-- Lets programs go on, one after another, until each of them ends or has to wait. -/
def settle (host : Host σ) : List (Nat × Program α) → Scene σ α → Scene σ α
  | [], scene => scene
  | (task, program) :: others, scene => settle host others (scene.follow host task others program)

/-- Wakes up whoever is the first to wake up. -/
def turn (host : Host σ) (scene : Scene σ α) : Option (Scene σ α) :=
  (Waiter.earliest scene.waiters).map fun waiter =>
    let awake := scene.wake waiter
    awake.settle host awake.active

/-- Wakes programs until all have ended, or one has ended in a way on which the others are given
up. -/
def spin (host : Host σ) (stops : α → Bool) : Nat → Scene σ α → Scene σ α
  | 0, scene => scene
  | wakeups + 1, scene =>
      if scene.finished.any fun (_, result) => stops result then scene
      else
        match scene.turn host with
        | none => scene
        | some next => next.spin host stops wakeups

/-- The second scene is what the first one comes to after some steps, before anybody is woken who
does not go on already. -/
def Follows (host : Host σ) (scene next : Scene σ α) : Prop :=
  next.pending host = scene.pending host ∧ ∃ steps, scene.run host steps = next

section Agreement

variable {host : Host σ} {scene next last : Scene σ α}

theorem run_run (host : Host σ) (scene : Scene σ α) (steps more : Nat) :
    (scene.run host steps).run host more = scene.run host (steps + more) := by
  induction steps generalizing scene with
  | zero => rw [run, Nat.zero_add]
  | succ steps ih =>
      rw [Nat.add_right_comm]
      cases goesOn : scene.step host with
      | none => rw [run_of_halted goesOn, run_of_halted goesOn, run_of_halted goesOn]
      | some next => rw [run_of_step goesOn, run_of_step goesOn, ih]

theorem Follows.refl (host : Host σ) (scene : Scene σ α) : scene.Follows host scene :=
  ⟨rfl, 0, rfl⟩

theorem Follows.trans (first : scene.Follows host next) (second : next.Follows host last) :
    scene.Follows host last := by
  obtain ⟨same, steps, rfl⟩ := first
  obtain ⟨same', more, rfl⟩ := second
  exact ⟨same'.trans same, steps + more, (run_run host scene steps more).symm⟩

theorem follows_of_active (host : Host σ) {task : Nat} {program : Program α}
    {others : List (Nat × Program α)} (active : scene.active = (task, program) :: others) :
    scene.Follows host (scene.proceed host task others program) := by
  have steps : scene.step host = some (scene.proceed host task others program) := by
    rw [step, active]
  refine ⟨?_, 1, run_of_step steps 0⟩
  rcases step_pending steps with ⟨-, same⟩ | ⟨idle, -⟩
  · exact same
  · rw [idle] at active
    cases active

theorem follow_follows (host : Host σ) {task : Nat} {program : Program α}
    {others : List (Nat × Program α)} (scene : Scene σ α)
    (active : scene.active = (task, program) :: others) :
    scene.Follows host (scene.follow host task others program) ∧
      (scene.follow host task others program).active = others := by
  induction program generalizing scene with
  | done result => exact ⟨follows_of_active host active, rfl⟩
  | ask request goesOn ih =>
      have once := follows_of_active host active
      rw [proceed] at once
      rw [follow]
      rcases answered : host.answer request scene.now scene.state with
        ⟨state, reply | ⟨delay, finish⟩ | delay⟩
      · rw [answered] at once
        have goes := ih reply (scene.hear task others request goesOn (state, .now reply)) rfl
        exact ⟨once.trans goes.1, goes.2⟩
      · rw [answered] at once
        exact ⟨once, rfl⟩
      · rw [answered] at once
        exact ⟨once, rfl⟩

theorem settle_follows (host : Host σ) {active : List (Nat × Program α)} (scene : Scene σ α)
    (going : scene.active = active) :
    scene.Follows host (scene.settle host active) ∧ (scene.settle host active).active = [] := by
  induction active generalizing scene with
  | nil => exact ⟨.refl host scene, going⟩
  | cons first others ih =>
      obtain ⟨task, program⟩ := first
      obtain ⟨follows, rest⟩ := follow_follows host scene going
      obtain ⟨settles, idle⟩ := ih _ rest
      exact ⟨follows.trans settles, idle⟩

theorem schedule_of_settle {active : List (Nat × Program α)} (going : scene.active = active) :
    (scene.settle host active).schedule = scene.pending host := by
  obtain ⟨⟨same, -⟩, idle⟩ := settle_follows host scene going
  rw [← same, pending, idle, List.foldl_nil]

theorem turn_schedule (host : Host σ) (scene : Scene σ α) :
    scene.schedule.step host = (scene.turn host).map schedule := by
  have first : Sleeper.earliest scene.schedule.sleepers =
      (Waiter.earliest scene.waiters).map Waiter.sleeper := Waiter.earliest_sleeper scene.waiters
  rw [Schedule.step, first, turn, Option.map_map, Option.map_map]
  congr 1
  funext waiter
  show scene.schedule.wake host waiter.sleeper = _
  rw [← wake_pending]
  exact (schedule_of_settle rfl).symm

theorem spin_schedule (host : Host σ) (stops : α → Bool) (scene : Scene σ α) (wakeups : Nat) :
    (scene.spin host stops wakeups).schedule = scene.schedule.run host stops wakeups := by
  induction wakeups generalizing scene with
  | zero => rfl
  | succ wakeups ih =>
      rw [spin, Schedule.run, turn_schedule]
      show _ = if (scene.finished.any fun (_, result) => stops result) = true then _ else _
      split
      · rfl
      · cases scene.turn host with
        | none => rfl
        | some next => exact ih next

theorem turn_run (turns : scene.turn host = some next) (idle : scene.active = []) :
    next.active = [] ∧ ∃ steps, scene.run host steps = next := by
  obtain ⟨waiter, first, rfl⟩ := Option.map_eq_some_iff.mp turns
  have wakes : scene.step host = some (scene.wake waiter) := by
    rw [step, idle, first, Option.map_some]
  obtain ⟨⟨-, steps, settles⟩, rest⟩ :=
    settle_follows host (scene.wake waiter) rfl
  exact ⟨rest, steps + 1, (run_of_step wakes steps).trans settles⟩

theorem spin_run (stops : α → Bool) (wakeups : Nat) (idle : scene.active = []) :
    (scene.spin host stops wakeups).active = [] ∧
      ∃ steps, scene.run host steps = scene.spin host stops wakeups := by
  induction wakeups generalizing scene with
  | zero => exact ⟨idle, 0, rfl⟩
  | succ wakeups ih =>
      rw [spin]
      split
      · exact ⟨idle, 0, rfl⟩
      · cases turns : scene.turn host with
        | none => exact ⟨idle, 0, rfl⟩
        | some next =>
            obtain ⟨idle', steps, turned⟩ := turn_run turns idle
            obtain ⟨idle'', more, spins⟩ := ih idle'
            exact ⟨idle'', steps + more, by rw [← run_run, turned, spins]⟩

end Agreement

end Scene

namespace Moment

variable {σ α : Type}

/-- What is seen of programs that run together until all have ended, or are given up. -/
def watch (host : Host σ) (wakeups : Nat) (stops : α → Bool) (moment : Moment σ)
    (programs : List (Program α)) : Scene σ α :=
  let scene := Scene.start moment programs
  (scene.settle host scene.active).spin host stops wakeups

variable {host : Host σ} {moment : Moment σ} {stops : α → Bool} {wakeups : Nat}
variable {programs : List (Program α)}

/-- What is watched comes to the same moment and the same results as what is run. -/
theorem watch_runAll (alone : moment.strays = []) (wakeups : Nat) (stops : α → Bool)
    (programs : List (Program α)) :
    moment.runAll host wakeups stops programs =
      ((moment.watch host wakeups stops programs).schedule.rest,
        (moment.watch host wakeups stops programs).finished) := by
  have same : (moment.watch host wakeups stops programs).schedule =
      (Schedule.start host moment programs).run host stops wakeups := by
    rw [watch, Scene.spin_schedule, Scene.schedule_of_settle rfl, Scene.start_pending alone]
  rw [runAll, ← same]
  rfl

theorem watch_run (host : Host σ) (wakeups : Nat) (stops : α → Bool) (moment : Moment σ)
    (programs : List (Program α)) :
    (moment.watch host wakeups stops programs).active = [] ∧
      ∃ steps, (Scene.start moment programs).run host steps =
        moment.watch host wakeups stops programs := by
  obtain ⟨⟨-, steps, settles⟩, idle⟩ :=
    Scene.settle_follows host (Scene.start moment programs) rfl
  obtain ⟨rest, more, spins⟩ := Scene.spin_run stops wakeups idle
  exact ⟨rest, steps + more, by rw [← Scene.run_run, settles]; exact spins⟩

end Moment

end WebHarvest
