import Mathlib.Data.List.Nodup
import WebHarvest.Proofs.Program.Schedule

/-!
# What programs are seen to do

A scene is a schedule at a finer grain: one step is one request, and a program that waits is still
seen as the program that it is. The scene keeps a log of who asked for what, who had to wait for
how long, what the replies were and who ended. Its runs come to the same moments and results as
those of the schedule, so what the log says is what happened there.
-/

set_option autoImplicit false

namespace WebHarvest

inductive Deed where
  | asks (request : Request)
  /-- The reply is not there yet, or the request is put off. -/
  | sleeps (delay : Int)
  | hears (request : Request) (reply : request.Reply)
  | ends

structure Entry where
  time : Int
  task : Nat
  deed : Deed

/-- A program that waits for the reply to a request. Without `finish` the request is put off, and
will be made again. -/
structure Waiter (σ α : Type) where
  task : Nat
  wake : Int
  registration : Nat
  request : Request
  next : request.Reply → Program α
  finish : Option (Int → σ → σ × request.Reply)

namespace Waiter

variable {σ α : Type}

def sleeper (waiter : Waiter σ α) : Sleeper σ α where
  task := waiter.task
  wake := waiter.wake
  registration := waiter.registration
  wakeUp := match waiter.finish with
    | none => fun _ state => (state, .ask waiter.request waiter.next)
    | some finish => fun woken state =>
        ((finish woken state).1, waiter.next (finish woken state).2)

def earliest : List (Waiter σ α) → Option (Waiter σ α)
  | [] => none
  | waiter :: rest =>
      match earliest rest with
      | none => some waiter
      | some other => some (if other.sleeper.before waiter.sleeper then other else waiter)

theorem earliest_sleeper (waiters : List (Waiter σ α)) :
    Sleeper.earliest (waiters.map sleeper) = (earliest waiters).map sleeper := by
  induction waiters with
  | nil => rfl
  | cons waiter rest ih =>
      rw [List.map_cons, Sleeper.earliest, earliest, ih]
      cases earliest rest with
      | none => rfl
      | some other =>
          simp only [Option.map_some]
          split <;> rfl

theorem eq_nil_of_earliest {waiters : List (Waiter σ α)} (missing : earliest waiters = none) :
    waiters = [] := by
  have nobody : Sleeper.earliest (waiters.map sleeper) = none := by
    rw [earliest_sleeper, missing, Option.map_none]
  exact List.map_eq_nil_iff.mp (Sleeper.eq_nil_of_earliest nobody)

theorem earliest_some {waiters : List (Waiter σ α)} {first : Waiter σ α}
    (found : earliest waiters = some first) :
    first ∈ waiters ∧ ∀ waiter ∈ waiters, first.wake ≤ waiter.wake := by
  constructor
  · induction waiters generalizing first with
    | nil => cases found
    | cons waiter rest ih =>
        rw [earliest] at found
        cases later : earliest rest with
        | none =>
            rw [later] at found
            obtain rfl := Option.some.inj found
            exact List.mem_cons_self
        | some other =>
            rw [later] at found
            obtain rfl := Option.some.inj found
            split
            · exact List.mem_cons_of_mem _ (ih later)
            · exact List.mem_cons_self
  · have least : Sleeper.earliest (waiters.map sleeper) = some first.sleeper := by
      rw [earliest_sleeper, found, Option.map_some]
    intro waiter member
    exact (Sleeper.earliest_some least).2 waiter.sleeper (List.mem_map_of_mem member)

theorem eq_of_registration {waiters : List (Waiter σ α)}
    (ordered : waiters.Pairwise (·.registration < ·.registration)) {one other : Waiter σ α}
    (isOne : one ∈ waiters) (isOther : other ∈ waiters)
    (same : one.registration = other.registration) : one = other := by
  have distinct : (waiters.map registration).Nodup :=
    List.pairwise_map.mpr (ordered.imp Nat.ne_of_lt)
  exact List.inj_on_of_nodup_map distinct isOne isOther same

theorem earliest_of_first {before after : List (Waiter σ α)} {first : Waiter σ α}
    (ordered : (before ++ first :: after).Pairwise (·.registration < ·.registration))
    (sooner : ∀ waiter ∈ before, first.wake < waiter.wake)
    (least : ∀ waiter ∈ after, first.wake ≤ waiter.wake) :
    earliest (before ++ first :: after) = some first := by
  have wakes : Sleeper.earliest ((before ++ first :: after).map sleeper) = some first.sleeper := by
    rw [List.map_append, List.map_cons]
    refine Sleeper.earliest_of_first ?_ (List.forall_mem_map.mpr sooner)
      (List.forall_mem_map.mpr least)
    rw [← List.map_cons, ← List.map_append]
    exact List.pairwise_map.mpr ordered
  rw [earliest_sleeper] at wakes
  obtain ⟨other, found, same⟩ := Option.map_eq_some_iff.mp wakes
  rw [found, eq_of_registration ordered (earliest_some found).1 (by simp)
    (congrArg Sleeper.registration same)]

theorem split_of_earliest {waiters : List (Waiter σ α)} {first : Waiter σ α}
    (ordered : waiters.Pairwise (·.registration < ·.registration))
    (found : earliest waiters = some first) :
    ∃ before after, waiters = before ++ first :: after ∧
      (∀ waiter ∈ before, first.wake < waiter.wake) ∧
      ∀ waiter ∈ after, first.wake ≤ waiter.wake := by
  have wakes : Sleeper.earliest (waiters.map sleeper) = some first.sleeper := by
    rw [earliest_sleeper, found, Option.map_some]
  obtain ⟨sooner, later, split, isSooner, isLater⟩ :=
    Sleeper.split_of_earliest (List.pairwise_map.mpr ordered) wakes
  obtain ⟨before, rest, rfl, rfl, others⟩ := List.map_eq_append_iff.mp split
  obtain ⟨other, after, rfl, same, rfl⟩ := List.map_eq_cons_iff.mp others
  obtain rfl : other = first :=
    eq_of_registration ordered (by simp) (earliest_some found).1
      (congrArg Sleeper.registration same)
  refine ⟨before, after, rfl, fun waiter member => ?_, fun waiter member => ?_⟩
  · exact isSooner waiter.sleeper (List.mem_map_of_mem member)
  · exact isLater waiter.sleeper (List.mem_map_of_mem member)

end Waiter

/-- Programs that run together. `active` are those that can go on, with their numbers: the first of
them runs, the others have not started yet. -/
structure Scene (σ α : Type) where
  now : Int
  state : σ
  registered : Nat
  active : List (Nat × Program α) := []
  waiters : List (Waiter σ α) := []
  finished : List (Nat × α) := []
  log : List Entry := []

namespace Scene

variable {σ α : Type}

def start (moment : Moment σ) (programs : List (Program α)) : Scene σ α where
  now := moment.now
  state := moment.state
  registered := moment.registered
  active := programs.zipIdx.map fun (program, task) => (task, program)

def noted (scene : Scene σ α) (task : Nat) (deeds : List Deed) : List Entry :=
  scene.log ++ deeds.map fun deed => ⟨scene.now, task, deed⟩

/-- What the host answers to a program's request, put into the scene. A reply that is due before
the request comes at once. -/
def hear (scene : Scene σ α) (task : Nat) (others : List (Nat × Program α)) (request : Request)
    (next : request.Reply → Program α) : σ × Answer σ request.Reply → Scene σ α
  | (state, .now reply) =>
      { scene with
        state
        active := (task, next reply) :: others
        log := scene.noted task [.asks request, .hears request reply] }
  | (state, .later delay finish) =>
      { scene with
        state
        registered := scene.registered + 1
        active := others
        waiters := scene.waiters ++
          [⟨task, scene.now + delay, scene.registered, request, next, some finish⟩]
        log := scene.noted task [.asks request, .sleeps (max 0 delay)] }
  | (state, .putOff delay) =>
      { scene with
        state
        registered := scene.registered + 1
        active := others
        waiters := scene.waiters ++
          [⟨task, scene.now + delay, scene.registered, request, next, none⟩]
        log := scene.noted task [.asks request, .sleeps (max 0 delay)] }

def proceed (host : Host σ) (scene : Scene σ α) (task : Nat) (others : List (Nat × Program α)) :
    Program α → Scene σ α
  | .done result =>
      { scene with
        active := others
        finished := scene.finished ++ [(task, result)]
        log := scene.noted task [.ends] }
  | .ask request next =>
      scene.hear task others request next (host.answer request scene.now scene.state)

def wake (scene : Scene σ α) (waiter : Waiter σ α) : Scene σ α :=
  let awake := { scene with
    now := max scene.now waiter.wake
    waiters := scene.waiters.filter (·.registration != waiter.registration) }
  match waiter.finish with
  | none => { awake with active := [(waiter.task, .ask waiter.request waiter.next)] }
  | some finish =>
      let (state, reply) := finish awake.now awake.state
      { awake with
        state
        active := [(waiter.task, waiter.next reply)]
        log := awake.noted waiter.task [.hears waiter.request reply] }

def step (host : Host σ) (scene : Scene σ α) : Option (Scene σ α) :=
  match scene.active with
  | (task, program) :: others => some (scene.proceed host task others program)
  | [] => (Waiter.earliest scene.waiters).map scene.wake

def run (host : Host σ) : Nat → Scene σ α → Scene σ α
  | 0, scene => scene
  | steps + 1, scene =>
      match scene.step host with
      | none => scene
      | some next => next.run host steps

theorem run_of_step {host : Host σ} {scene next : Scene σ α} (steps : scene.step host = some next)
    (more : Nat) : scene.run host (more + 1) = next.run host more := by
  simp only [run, steps]

theorem run_of_halted {host : Host σ} {scene : Scene σ α} (halted : scene.step host = none)
    (steps : Nat) : scene.run host steps = scene := by
  cases steps with
  | zero => rfl
  | succ steps => simp only [run, halted]

theorem run_of_more {host : Host σ} {scene : Scene σ α} {steps : Nat}
    (halted : (scene.run host steps).step host = none) {more : Nat} (enough : steps ≤ more) :
    scene.run host more = scene.run host steps := by
  induction steps generalizing scene more with
  | zero => exact run_of_halted halted more
  | succ steps ih =>
      obtain ⟨more, rfl⟩ := Nat.exists_eq_add_of_le' (Nat.one_le_of_lt enough)
      cases goesOn : scene.step host with
      | none => rw [run_of_halted goesOn, run_of_halted goesOn]
      | some next =>
          rw [run_of_step goesOn] at halted ⊢
          rw [run_of_step goesOn]
          exact ih halted (Nat.le_of_succ_le_succ enough)

theorem run_keeps (host : Host σ) (property : Scene σ α → Prop)
    (keeps : ∀ {scene next : Scene σ α}, property scene → scene.step host = some next →
      property next)
    {scene : Scene σ α} (holds : property scene) (steps : Nat) :
    property (scene.run host steps) := by
  induction steps generalizing scene with
  | zero => exact holds
  | succ steps ih =>
      cases goesOn : scene.step host with
      | none => rwa [run_of_halted goesOn]
      | some next =>
          rw [run_of_step goesOn]
          exact ih (keeps holds goesOn)

/-- The schedule that is seen when the programs that can go on are left out. -/
def schedule (scene : Scene σ α) : Schedule σ α where
  now := scene.now
  state := scene.state
  registered := scene.registered
  sleepers := scene.waiters.map Waiter.sleeper
  finished := scene.finished

/-- The schedule when all who can go on have come to their next wait. -/
def pending (host : Host σ) (scene : Scene σ α) : Schedule σ α :=
  scene.active.foldl (fun schedule (task, program) => schedule.resume host task program)
    scene.schedule

section Agreement

variable {host : Host σ} {scene next : Scene σ α}

theorem start_pending {moment : Moment σ} (alone : moment.strays = [])
    (programs : List (Program α)) :
    (start moment programs).pending host = Schedule.start host moment programs := by
  obtain ⟨now, state, registered, strays⟩ := moment
  obtain rfl : strays = [] := alone
  simp only [pending, start, Schedule.start, List.foldl_map]
  rfl

theorem proceed_pending (host : Host σ) (scene : Scene σ α) (task : Nat)
    (others : List (Nat × Program α)) (program : Program α) :
    (scene.proceed host task others program).pending host =
      others.foldl (fun schedule (task, program) => schedule.resume host task program)
        (scene.schedule.resume host task program) := by
  cases program with
  | done result => rfl
  | ask request next =>
      rw [proceed]
      rcases answered : host.answer request scene.now scene.state with ⟨state, answer⟩
      have given : host.answer request scene.schedule.now scene.schedule.state = (state, answer) :=
        answered
      cases answer with
      | now reply =>
          rw [Schedule.resume_of_now given task next]
          rfl
      | later delay finish =>
          rw [Schedule.resume_of_later given task next]
          simp only [pending, hear, schedule, List.map_append, List.map_singleton]
          rfl
      | putOff delay =>
          rw [Schedule.resume_of_putOff given task next]
          simp only [pending, hear, schedule, List.map_append, List.map_singleton]
          rfl

theorem wake_pending (host : Host σ) (scene : Scene σ α) (waiter : Waiter σ α) :
    (scene.wake waiter).pending host = scene.schedule.wake host waiter.sleeper := by
  obtain ⟨task, wakes, registration, request, next, finish⟩ := waiter
  have others : (scene.waiters.filter (·.registration != registration)).map Waiter.sleeper =
      (scene.waiters.map Waiter.sleeper).filter (·.registration != registration) := by
    rw [List.filter_map]
    rfl
  cases finish with
  | none =>
      simp only [wake, pending, schedule, others, List.foldl_cons, List.foldl_nil]
      rfl
  | some finish =>
      simp only [wake, pending, schedule, others, List.foldl_cons, List.foldl_nil]
      rfl

/-- As long as somebody can go on, the schedule that the scene is about to come to stays the same;
then whoever wakes up first goes on in both. -/
theorem step_pending (steps : scene.step host = some next) :
    (scene.active ≠ [] ∧ next.pending host = scene.pending host) ∨
      scene.active = [] ∧ scene.schedule.step host = some (next.pending host) := by
  unfold step at steps
  cases going : scene.active with
  | cons first others =>
      obtain ⟨task, program⟩ := first
      rw [going] at steps
      obtain rfl := Option.some.inj steps
      refine Or.inl ⟨nofun, ?_⟩
      rw [proceed_pending, pending, going, List.foldl_cons]
  | nil =>
      rw [going] at steps
      obtain ⟨waiter, found, rfl⟩ := Option.map_eq_some_iff.mp steps
      refine Or.inr ⟨rfl, ?_⟩
      have first : Sleeper.earliest scene.schedule.sleepers = some waiter.sleeper := by
        rw [schedule, Waiter.earliest_sleeper, found, Option.map_some]
      rw [Schedule.step, first]
      refine congrArg some (.trans ?_ (wake_pending host scene waiter).symm)
      rfl

theorem step_eq_none (host : Host σ) :
    scene.step host = none ↔ scene.active = [] ∧ scene.waiters = [] := by
  unfold step
  constructor
  · intro halted
    split at halted
    next => cases halted
    next idle => exact ⟨idle, Waiter.eq_nil_of_earliest (Option.map_eq_none_iff.mp halted)⟩
  · rintro ⟨idle, nobody⟩
    rw [idle, nobody]
    rfl

theorem step_finished (steps : scene.step host = some next) :
    scene.finished ⊆ next.finished := by
  unfold step at steps
  split at steps
  next task program others _ =>
    obtain rfl := Option.some.inj steps
    cases program with
    | done result => exact List.subset_append_left _ _
    | ask request goesOn =>
        rw [proceed]
        rcases host.answer request scene.now scene.state with
          ⟨state, reply | ⟨delay, finish⟩ | delay⟩
        · exact List.Subset.refl _
        · exact List.Subset.refl _
        · exact List.Subset.refl _
  next =>
    obtain ⟨waiter, -, rfl⟩ := Option.map_eq_some_iff.mp steps
    unfold wake
    split
    · exact List.Subset.refl _
    · exact List.Subset.refl _

theorem run_finished (host : Host σ) (scene : Scene σ α) (steps : Nat) :
    scene.finished ⊆ (scene.run host steps).finished :=
  run_keeps host (fun later => scene.finished ⊆ later.finished)
    (fun sofar goesOn => List.Subset.trans sofar (step_finished goesOn)) (List.Subset.refl _) steps

theorem schedule_going {stops : α → Bool}
    (goes : ∀ entry ∈ scene.finished, stops entry.2 = false) :
    (scene.schedule.finished.any fun (_, result) => stops result) = false := by
  rw [List.any_eq_false]
  rintro ⟨task, result⟩ isEntry
  exact ne_true_of_eq_false (goes (task, result) isEntry)

theorem schedule_halted {stops : α → Bool} (halted : scene.step host = none)
    (goes : ∀ entry ∈ scene.finished, stops entry.2 = false) (wakeups : Nat) :
    (scene.pending host).run host stops wakeups = scene.schedule := by
  obtain ⟨idle, nobody⟩ := (step_eq_none host).mp halted
  have stays : scene.schedule.step host = none := by
    rw [Schedule.step, schedule, nobody]
    rfl
  rw [pending, idle, List.foldl_nil]
  cases wakeups with
  | zero => rfl
  | succ wakeups =>
      simp only [Schedule.run, schedule_going goes, stays, Bool.false_eq_true, if_false]

/-- A scene that is over shows what the schedule comes to. -/
theorem run_pending {stops : α → Bool} {steps : Nat}
    (halted : (scene.run host steps).step host = none)
    (goes : ∀ entry ∈ (scene.run host steps).finished, stops entry.2 = false) :
    ∃ enough, ∀ wakeups, enough ≤ wakeups →
      (scene.pending host).run host stops wakeups = (scene.run host steps).schedule := by
  -- Only a step that wakes somebody up is a step of the schedule.
  induction steps generalizing scene with
  | zero => exact ⟨0, fun wakeups _ => schedule_halted halted goes wakeups⟩
  | succ steps ih =>
      cases goesOn : scene.step host with
      | none =>
          rw [run_of_halted goesOn] at goes ⊢
          exact ⟨0, fun wakeups _ => schedule_halted goesOn goes wakeups⟩
      | some next =>
          rw [run_of_step goesOn] at halted goes ⊢
          obtain ⟨enough, runs⟩ := ih halted goes
          rcases step_pending goesOn with ⟨-, same⟩ | ⟨idle, woken⟩
          · exact ⟨enough, fun wakeups bound => same ▸ runs wakeups bound⟩
          · refine ⟨enough + 1, fun wakeups bound => ?_⟩
            obtain ⟨wakeups, rfl⟩ := Nat.exists_eq_add_of_le' bound
            have waits : scene.pending host = scene.schedule := by
              rw [pending, idle, List.foldl_nil]
            have going : (scene.schedule.finished.any fun (_, result) => stops result) = false :=
              schedule_going fun entry isEntry =>
                goes entry (run_finished host next steps (step_finished goesOn isEntry))
            rw [← runs (wakeups + enough) (Nat.le_add_left _ _), ← Nat.add_assoc, waits,
              Schedule.run]
            simp only [going, woken, Bool.false_eq_true, if_false]

end Agreement

end Scene

namespace Moment

variable {σ α : Type} {host : Host σ}

/-- What is seen of programs that run together from a moment on, within a number of steps. -/
def record (host : Host σ) (steps : Nat) (moment : Moment σ) (programs : List (Program α)) :
    List Entry :=
  ((Scene.start moment programs).run host steps).log

/-- When the scene is over, it shows how the programs have run, and its log is complete. -/
theorem runAll_of_halted {moment : Moment σ} (alone : moment.strays = [])
    {programs : List (Program α)} {stops : α → Bool} {steps : Nat}
    (halted : ((Scene.start moment programs).run host steps).step host = none)
    (goes : ∀ entry ∈ ((Scene.start moment programs).run host steps).finished,
      stops entry.2 = false) :
    ∃ enough, ∀ more, enough ≤ more →
      moment.runAll host more stops programs =
        (((Scene.start moment programs).run host steps).schedule.rest,
          ((Scene.start moment programs).run host steps).finished) ∧
      moment.record host more programs = ((Scene.start moment programs).run host steps).log := by
  obtain ⟨enough, runs⟩ := Scene.run_pending halted goes
  refine ⟨max enough steps, fun more bound => ⟨?_, ?_⟩⟩
  · rw [runAll, ← Scene.start_pending alone, runs more (by omega)]
    rfl
  · rw [record, Scene.run_of_more halted (by omega)]

end Moment

end WebHarvest
