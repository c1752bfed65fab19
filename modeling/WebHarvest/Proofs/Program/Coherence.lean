import WebHarvest.Proofs.Program.Led

/-!
# Scenes whose logs tell all

In a coherent scene the log tells of every program how it has come to where it is: what it does now
or waits for, or how it has ended. Every step keeps a scene coherent.
-/

set_option autoImplicit false

namespace WebHarvest

open Program (Led)

variable {σ α : Type}

/-- From a time on, its deeds have led the program with number `task` to what is left of it. -/
def Leads (atOnce : Request → Prop) (programs : List (Program α)) (begin : Int) (task : Nat)
    (deeds : List Deed) (last : Program α) : Prop :=
  ∃ program, programs[task]? = some program ∧ Led atOnce begin program deeds last

theorem Leads.trans {atOnce : Request → Prop} {programs : List (Program α)} {begin : Int}
    {task : Nat} {deeds more : List Deed} {middle last : Program α}
    (leads : Leads atOnce programs begin task deeds middle)
    (led : Led atOnce (begin + slept deeds) middle more last) :
    Leads atOnce programs begin task (deeds ++ more) last := by
  obtain ⟨program, isProgram, first⟩ := leads
  exact ⟨program, isProgram, first.trans led⟩

theorem Waiter.split_of_mem {waiters : List (Waiter σ α)}
    (ordered : waiters.Pairwise (·.registration < ·.registration)) {waiter : Waiter σ α}
    (member : waiter ∈ waiters) :
    ∃ before after, waiters = before ++ waiter :: after ∧
      waiters.filter (·.registration != waiter.registration) = before ++ after := by
  obtain ⟨before, after, rfl⟩ := List.append_of_mem member
  exact ⟨before, after, rfl, filter_key_ne Waiter.registration ordered⟩

/-- How the waiter has come to wait, and how it will go on at the end of its sleep. -/
structure Waiter.Waits (gauge : Gauge σ) (programs : List (Program α)) (begin now : Int)
    (deeds : List Deed) (waiter : Waiter σ α) : Prop where
  led : ∃ before delay, deeds = before ++ [.asks waiter.request, .sleeps delay] ∧ 0 ≤ delay ∧
    Leads gauge.atOnce programs begin waiter.task before (.ask waiter.request waiter.next)
  ahead : now ≤ begin + slept deeds
  wakes : waiter.wake = begin + slept deeds ∨ waiter.wake ≤ now ∧ begin + slept deeds = now
  putOff : waiter.finish = none → ∃ scope target, waiter.request = .takeSlot scope target
  finishes : ∀ finish, waiter.finish = some finish → ¬ gauge.atOnce waiter.request ∧
    ∀ woken other, gauge.Ready other → gauge.Kept other (finish woken other).1 ∧
      waiter.request.Sound woken (finish woken other).2

namespace Scene

/-- The task's entries in the log say that it has done this since a time. -/
def Shows (scene : Scene σ α) (begin : Int) (task : Nat) (deeds : List Deed) : Prop :=
  scene.log.filter (·.task == task) = stamp task begin deeds

/-- What is coherent of a scene besides the programs that can go on; the tasks `running` are these
programs. -/
structure Settled (gauge : Gauge σ) (programs : List (Program α)) (begin : Int)
    (running : List Nat) (scene : Scene σ α) : Prop where
  calm : gauge.Calm scene.state
  tasks : (running ++ (scene.waiters.map (·.task) ++ scene.finished.map (·.1))).Perm
    (List.range programs.length)
  ordered : scene.waiters.Pairwise (·.registration < ·.registration)
  below : ∀ waiter ∈ scene.waiters, waiter.registration < scene.registered
  waits : ∀ waiter ∈ scene.waiters, ∃ deeds, scene.Shows begin waiter.task deeds ∧
    waiter.Waits gauge programs begin scene.now deeds
  ended : ∀ entry ∈ scene.finished, ∃ deeds, scene.Shows begin entry.1 (deeds ++ [.ends]) ∧
    Leads gauge.atOnce programs begin entry.1 deeds (.done entry.2)
  inside : ∀ entry ∈ scene.log, entry.task < programs.length
  past : ∀ entry ∈ scene.log, entry.time ≤ scene.now
  sorted : scene.log.Pairwise (·.time ≤ ·.time)

/-- A program that can go on, and what it has done. -/
def Goes (scene : Scene σ α) (gauge : Gauge σ) (programs : List (Program α)) (begin : Int)
    (task : Nat) (deeds : List Deed) (program : Program α) : Prop :=
  scene.Shows begin task deeds ∧ begin + slept deeds = scene.now ∧
    Leads gauge.atOnce programs begin task deeds program

structure Coherent (gauge : Gauge σ) (programs : List (Program α)) (begin : Int)
    (scene : Scene σ α) : Prop where
  settled : scene.Settled gauge programs begin (scene.active.map (·.1))
  goes : ∀ entry ∈ scene.active, ∃ deeds, scene.Goes gauge programs begin entry.1 deeds entry.2
  /-- The last thing in the log has just happened, once all have ended. -/
  current : scene.active = [] → scene.waiters = [] → programs ≠ [] →
    ∃ entry ∈ scene.log, entry.time = scene.now

variable {gauge : Gauge σ} {programs : List (Program α)} {begin : Int} {scene : Scene σ α}
variable {task : Nat} {deeds : List Deed}

section Noting

theorem noted_of_ne {other : Nat} (differ : other ≠ task) (more : List Deed) :
    (scene.noted task more).filter (·.task == other) = scene.log.filter (·.task == other) := by
  have nothing : (more.map fun deed => (⟨scene.now, task, deed⟩ : Entry)).filter
      (·.task == other) = [] := by
    rw [List.filter_eq_nil_iff]
    intro entry isEntry
    obtain ⟨deed, -, rfl⟩ := List.mem_map.mp isEntry
    simpa using differ.symm
  rw [noted, List.filter_append, nothing, List.append_nil]

theorem noted_self (shows : scene.Shows begin task deeds)
    (arrived : begin + slept deeds = scene.now) {more : List Deed}
    (short : stamp task scene.now more = more.map fun deed => ⟨scene.now, task, deed⟩) :
    (scene.noted task more).filter (·.task == task) = stamp task begin (deeds ++ more) := by
  have own : ∀ entry ∈ more.map fun deed => (⟨scene.now, task, deed⟩ : Entry),
      (entry.task == task) = true := by
    intro entry isEntry
    obtain ⟨deed, -, rfl⟩ := List.mem_map.mp isEntry
    exact beq_self_eq_true task
  rw [noted, List.filter_append, shows, List.filter_eq_self.mpr own, stamp_append, arrived, short]

/-- What a task has done says nothing about the others, which can go on as before. -/
theorem Goes.others {others : List (Nat × Program α)} {more : List Deed} {next : Scene σ α}
    (goes : ∀ entry ∈ others, entry.1 ≠ task ∧
      ∃ deeds, scene.Goes gauge programs begin entry.1 deeds entry.2)
    (logged : next.log = scene.noted task more) (sameTime : next.now = scene.now) :
    ∀ entry ∈ others, ∃ deeds, next.Goes gauge programs begin entry.1 deeds entry.2 := by
  intro entry member
  obtain ⟨differ, deeds, shows, arrived, leads⟩ := goes entry member
  refine ⟨deeds, ?_, arrived.trans sameTime.symm, leads⟩
  rw [Shows, logged]
  exact (noted_of_ne differ more).trans shows

end Noting

namespace Settled

variable {others : List Nat}

theorem apart (settled : scene.Settled gauge programs begin (task :: others)) :
    task < programs.length ∧ task ∉ others ∧ (∀ waiter ∈ scene.waiters, waiter.task ≠ task) ∧
      ∀ entry ∈ scene.finished, entry.1 ≠ task := by
  have distinct := settled.tasks.nodup_iff.mpr List.nodup_range
  rw [List.cons_append, List.nodup_cons, List.mem_append, List.mem_append, not_or,
    not_or] at distinct
  obtain ⟨⟨elsewhere, awake, alive⟩, -⟩ := distinct
  refine ⟨List.mem_range.mp (settled.tasks.mem_iff.mp List.mem_cons_self), elsewhere, ?_, ?_⟩
  · rintro waiter member rfl
    exact awake (List.mem_map_of_mem member)
  · rintro entry member rfl
    exact alive (List.mem_map_of_mem member)

theorem note (settled : scene.Settled gauge programs begin (task :: others)) (more : List Deed) :
    { scene with log := scene.noted task more }.Settled gauge programs begin (task :: others) := by
  obtain ⟨known, -, asleep, ended⟩ := settled.apart
  refine { settled with
    waits := ?_, ended := ?_, inside := ?_, past := ?_, sorted := ?_ }
  · intro waiter member
    obtain ⟨deeds, shows, waits⟩ := settled.waits waiter member
    exact ⟨deeds, (noted_of_ne (asleep waiter member) more).trans shows, waits⟩
  · intro entry member
    obtain ⟨deeds, shows, leads⟩ := settled.ended entry member
    exact ⟨deeds, (noted_of_ne (ended entry member) more).trans shows, leads⟩
  · intro entry member
    rcases List.mem_append.mp member with member | member
    · exact settled.inside entry member
    · obtain ⟨deed, -, rfl⟩ := List.mem_map.mp member
      exact known
  · intro entry member
    rcases List.mem_append.mp member with member | member
    · exact settled.past entry member
    · obtain ⟨deed, -, rfl⟩ := List.mem_map.mp member
      exact le_rfl
  · refine List.pairwise_append.mpr ⟨settled.sorted, ?_, ?_⟩
    · exact List.pairwise_map.mpr (List.pairwise_of_forall fun _ _ => le_rfl)
    · intro earlier isEarlier later isLater
      obtain ⟨deed, -, rfl⟩ := List.mem_map.mp isLater
      exact settled.past earlier isEarlier

theorem move (settled : scene.Settled gauge programs begin others) {state : σ}
    (calm : gauge.Calm state) :
    { scene with state }.Settled gauge programs begin others :=
  { settled with calm }

theorem act (settled : scene.Settled gauge programs begin others)
    (active : List (Nat × Program α)) :
    { scene with active }.Settled gauge programs begin others :=
  { settled with calm := settled.calm }

theorem finish (settled : scene.Settled gauge programs begin (task :: others)) {result : α}
    (shows : scene.Shows begin task (deeds ++ [.ends]))
    (leads : Leads gauge.atOnce programs begin task deeds (.done result)) :
    { scene with finished := scene.finished ++ [(task, result)] }.Settled gauge programs begin
      others :=
  { settled with
    tasks := by
      refine .trans ?_ settled.tasks
      simp only [List.map_append, List.map_singleton, ← List.append_assoc]
      exact List.perm_append_comm
    ended := by
      simp only [List.forall_mem_append, List.forall_mem_singleton]
      exact ⟨settled.ended, deeds, shows, leads⟩ }

theorem sleep (settled : scene.Settled gauge programs begin (task :: others))
    (waiter : Waiter σ α) (own : waiter.task = task)
    (fresh : waiter.registration = scene.registered) (shows : scene.Shows begin task deeds)
    (waits : waiter.Waits gauge programs begin scene.now deeds) :
    { scene with
      registered := scene.registered + 1
      waiters := scene.waiters ++ [waiter] }.Settled gauge programs begin others :=
  { settled with
    tasks := by
      refine .trans ?_ settled.tasks
      simp only [List.map_append, List.map_singleton, List.append_assoc, own]
      exact (List.perm_middle.append_left _).trans List.perm_middle
    ordered := by
      refine List.pairwise_append.mpr ⟨settled.ordered, List.pairwise_singleton _ _, ?_⟩
      intro earlier isEarlier later isLater
      obtain rfl := List.mem_singleton.mp isLater
      rw [fresh]
      exact settled.below earlier isEarlier
    below := by
      simp only [List.forall_mem_append, List.forall_mem_singleton]
      exact ⟨fun earlier isEarlier => Nat.lt_succ_of_lt (settled.below earlier isEarlier),
        fresh ▸ Nat.lt_succ_self _⟩
    waits := by
      simp only [List.forall_mem_append, List.forall_mem_singleton]
      exact ⟨settled.waits, deeds, own ▸ shows, waits⟩ }

theorem pick (settled : scene.Settled gauge programs begin []) {waiter : Waiter σ α}
    (first : Waiter.earliest scene.waiters = some waiter) :
    ∃ deeds, scene.Shows begin waiter.task deeds ∧
      waiter.Waits gauge programs begin scene.now deeds ∧
      max scene.now waiter.wake = begin + slept deeds ∧
      { scene with
        now := max scene.now waiter.wake
        waiters := scene.waiters.filter (·.registration != waiter.registration) }.Settled gauge
          programs begin [waiter.task] := by
  obtain ⟨member, least⟩ := Waiter.earliest_some first
  obtain ⟨deeds, shows, waits⟩ := settled.waits waiter member
  have later : max scene.now waiter.wake = begin + slept deeds := by
    have ahead := waits.ahead
    -- A sleep of no length ends at once, and does not take the clock back.
    rcases waits.wakes with wakes | ⟨wakes, same⟩
    · omega
    · omega
  refine ⟨deeds, shows, waits, later, { settled with
    tasks := ?_, ordered := ?_, below := ?_, waits := ?_, past := ?_ }⟩
  · obtain ⟨before, after, split, others⟩ := Waiter.split_of_mem settled.ordered member
    refine .trans ?_ settled.tasks
    rw [others, split]
    simp only [List.map_append, List.map_cons, List.nil_append, List.append_assoc,
      List.cons_append]
    exact List.perm_middle.symm
  · exact settled.ordered.filter _
  · exact fun other isOther => settled.below other ((List.mem_filter.mp isOther).1)
  · intro other isOther
    have isWaiter := (List.mem_filter.mp isOther).1
    obtain ⟨its, told, sleeps⟩ := settled.waits other isWaiter
    have sooner := least other isWaiter
    have ahead := sleeps.ahead
    refine ⟨its, told, { sleeps with ahead := ?_, wakes := ?_ }⟩
    · show max scene.now waiter.wake ≤ begin + slept its
      rcases sleeps.wakes with wakes | ⟨wakes, same⟩
      · omega
      · omega
    · show _ ∨ other.wake ≤ max scene.now waiter.wake ∧
        begin + slept its = max scene.now waiter.wake
      rcases sleeps.wakes with wakes | ⟨wakes, same⟩
      · exact Or.inl wakes
      · exact Or.inr (by omega)
  · exact fun entry isEntry => (settled.past entry isEntry).trans (le_max_left _ _)

end Settled


/-- What a step can be in a scene whose host keeps time. -/
inductive Step (gauge : Gauge σ) (scene : Scene σ α) : Scene σ α → Prop where
  | ends {task : Nat} {result : α} {others : List (Nat × Program α)}
      (active : scene.active = (task, .done result) :: others) :
      Step gauge scene
        { scene with
          active := others
          finished := scene.finished ++ [(task, result)]
          log := scene.noted task [.ends] }
  | replied {task : Nat} {request : Request} {next : request.Reply → Program α}
      {others : List (Nat × Program α)} {state : σ} {reply : request.Reply}
      (active : scene.active = (task, .ask request next) :: others) (calm : gauge.Calm state)
      (counts : request.Counts (gauge.counts scene.state) (gauge.counts state) reply)
      (sound : request.Sound scene.now reply) :
      Step gauge scene
        { scene with
          state
          active := (task, next reply) :: others
          log := scene.noted task [.asks request, .hears request reply] }
  | delayed {task : Nat} {request : Request} {next : request.Reply → Program α}
      {others : List (Nat × Program α)} {state : σ} {delay : Int}
      {finish : Int → σ → σ × request.Reply}
      (active : scene.active = (task, .ask request next) :: others)
      (slow : ¬ gauge.atOnce request) (kept : gauge.Kept scene.state state)
      (finishes : ∀ woken other, gauge.Ready other →
        gauge.Kept other (finish woken other).1 ∧ request.Sound woken (finish woken other).2) :
      Step gauge scene
        { scene with
          state
          registered := scene.registered + 1
          active := others
          waiters := scene.waiters ++
            [⟨task, scene.now + delay, scene.registered, request, next, some finish⟩]
          log := scene.noted task [.asks request, .sleeps (max 0 delay)] }
  | putOff {task : Nat} {request : Request} {next : request.Reply → Program α}
      {others : List (Nat × Program α)} {state : σ} {delay : Int}
      (active : scene.active = (task, .ask request next) :: others)
      (slot : ∃ scope target, request = .takeSlot scope target) (calm : gauge.Calm state)
      (counts : gauge.counts state = gauge.counts scene.state) (late : 0 < delay)
      (busy : ∀ time, gauge.FreeBy scene.state time → gauge.FreeBy state time ∧ scene.now < time) :
      Step gauge scene
        { scene with
          state
          registered := scene.registered + 1
          active := others
          waiters := scene.waiters ++
            [⟨task, scene.now + delay, scene.registered, request, next, none⟩]
          log := scene.noted task [.asks request, .sleeps (max 0 delay)] }
  | woken {waiter : Waiter σ α} {state : σ} {reply : waiter.request.Reply}
      (idle : scene.active = []) (first : Waiter.earliest scene.waiters = some waiter)
      (delayed : waiter.finish ≠ none) (slow : ¬ gauge.atOnce waiter.request)
      (kept : gauge.Kept scene.state state)
      (sound : waiter.request.Sound (max scene.now waiter.wake) reply) :
      Step gauge scene
        { scene with
          now := max scene.now waiter.wake
          state
          waiters := scene.waiters.filter (·.registration != waiter.registration)
          active := [(waiter.task, waiter.next reply)]
          log := scene.log ++
            [⟨max scene.now waiter.wake, waiter.task, .hears waiter.request reply⟩] }
  | again {waiter : Waiter σ α} (idle : scene.active = [])
      (first : Waiter.earliest scene.waiters = some waiter) (putOff : waiter.finish = none) :
      Step gauge scene
        { scene with
          now := max scene.now waiter.wake
          waiters := scene.waiters.filter (·.registration != waiter.registration)
          active := [(waiter.task, .ask waiter.request waiter.next)] }

/-- A step when the program that runs is treated as by a host that keeps time, and whoever wakes up
hears what is sound. -/
theorem step_of_treats {host : Host σ} {next : Scene σ α}
    (asked : ∀ {task request others} {goesOn : request.Reply → Program α},
      scene.active = (task, .ask request goesOn) :: others →
        gauge.Treats request scene.now scene.state (host.answer request scene.now scene.state))
    (wakes : ∀ {waiter finish}, waiter ∈ scene.waiters → waiter.finish = some finish →
      ¬ gauge.atOnce waiter.request ∧
        gauge.Kept scene.state (finish (max scene.now waiter.wake) scene.state).1 ∧
        waiter.request.Sound (max scene.now waiter.wake)
          (finish (max scene.now waiter.wake) scene.state).2)
    (steps : scene.step host = some next) : scene.Step gauge next := by
  unfold step at steps
  cases active : scene.active with
  | nil =>
      rw [active] at steps
      obtain ⟨waiter, first, rfl⟩ := Option.map_eq_some_iff.mp steps
      cases finishes : waiter.finish with
      | none =>
          simp only [wake, finishes]
          exact .again active first finishes
      | some finish =>
          obtain ⟨slow, kept, sound⟩ := wakes (Waiter.earliest_some first).1 finishes
          simp only [wake, finishes]
          exact .woken active first (by rw [finishes]; exact Option.some_ne_none _) slow kept sound
  | cons head others =>
      obtain ⟨task, program⟩ := head
      rw [active] at steps
      obtain rfl := Option.some.inj steps
      cases program with
      | done result => exact .ends active
      | ask request goesOn =>
          have treats := asked active
          show scene.Step gauge (scene.hear task others request goesOn _)
          rcases given : host.answer request scene.now scene.state with ⟨state, answer⟩
          rw [given] at treats
          cases treats with
          | now calm counts sound => exact .replied active calm counts sound
          | later slow kept finishes => exact .delayed active slow kept finishes
          | putOff slot calm counts late busy => exact .putOff active slot calm counts late busy

/-- The host serves all requests of the programs, and each of them ends. -/
def Bounded (good : α → Prop) (programs : List (Program α)) : Prop :=
  ∀ program ∈ programs, ∃ bound, program.Within Request.IsServed good bound

theorem Bounded.leads {good : α → Prop} (bounded : Bounded good programs) {last : Program α}
    (leads : Leads gauge.atOnce programs begin task deeds last) :
    ∃ bound, last.Within Request.IsServed good bound := by
  obtain ⟨program, isProgram, led⟩ := leads
  obtain ⟨bound, within⟩ := bounded program (List.mem_of_getElem? isProgram)
  exact ⟨bound, led.within within⟩

namespace Coherent

variable {host : Host σ} {good : α → Prop} {next : Scene σ α}

theorem steps (coherent : scene.Coherent gauge programs begin) (keeps : host.KeepsTime gauge)
    (bounded : Bounded good programs) (steps : scene.step host = some next) :
    scene.Step gauge next := by
  have calm := coherent.settled.calm
  apply step_of_treats ?_ ?_ steps
  · intro task request others goesOn active
    obtain ⟨deeds, -, -, leads⟩ := coherent.goes (task, .ask request goesOn)
      (active ▸ List.mem_cons_self)
    obtain ⟨bound, within⟩ := bounded.leads leads
    cases within with
    | ask served _ => exact keeps.treats served scene.now calm
  · intro waiter finish member finishes
    obtain ⟨deeds, -, waits⟩ := coherent.settled.waits waiter member
    obtain ⟨slow, comes⟩ := waits.finishes finish finishes
    exact ⟨slow, comes (max scene.now waiter.wake) scene.state calm.ready⟩

theorem head (coherent : scene.Coherent gauge programs begin) {program : Program α}
    {others : List (Nat × Program α)} (active : scene.active = (task, program) :: others) :
    scene.Settled gauge programs begin (task :: others.map (·.1)) ∧
      (∃ deeds, scene.Goes gauge programs begin task deeds program) ∧
      ∀ entry ∈ others, entry.1 ≠ task ∧
        ∃ deeds, scene.Goes gauge programs begin entry.1 deeds entry.2 := by
  have settled := coherent.settled
  rw [active, List.map_cons] at settled
  have goes := coherent.goes
  rw [active, List.forall_mem_cons] at goes
  refine ⟨settled, goes.1, fun entry member => ⟨?_, goes.2 entry member⟩⟩
  intro same
  exact settled.apart.2.1 (List.mem_map.mpr ⟨entry, member, same⟩)

theorem fallAsleep (coherent : scene.Coherent gauge programs begin) {request : Request}
    {goesOn : request.Reply → Program α} {others : List (Nat × Program α)} {state : σ}
    (active : scene.active = (task, .ask request goesOn) :: others) (calm : gauge.Calm state)
    (delay : Int) (finish : Option (Int → σ → σ × request.Reply))
    (putOff : finish = none → ∃ scope target, request = .takeSlot scope target)
    (finishes : ∀ finishing, finish = some finishing → ¬ gauge.atOnce request ∧
      ∀ woken other, gauge.Ready other → gauge.Kept other (finishing woken other).1 ∧
        request.Sound woken (finishing woken other).2) :
    ({ scene with
      state
      registered := scene.registered + 1
      active := others
      waiters := scene.waiters ++
        [⟨task, scene.now + delay, scene.registered, request, goesOn, finish⟩]
      log := scene.noted task [.asks request, .sleeps (max 0 delay)] } : Scene σ α).Coherent gauge
        programs begin := by
  obtain ⟨settled, ⟨deeds, shows, arrived, leads⟩, goes⟩ := coherent.head active
  have noted : (scene.noted task [.asks request, .sleeps (max 0 delay)]).filter _ = _ :=
    noted_self shows arrived (by simp [stamp])
  have sleeps : begin + slept (deeds ++ [.asks request, .sleeps (max 0 delay)]) =
      scene.now + max 0 delay := by
    simp only [slept_append, slept_cons, slept_nil, Deed.span_asks, Deed.span_sleeps]
    omega
  let waiter : Waiter σ α :=
    ⟨task, scene.now + delay, scene.registered, request, goesOn, finish⟩
  have waits : waiter.Waits gauge programs begin scene.now
      (deeds ++ [.asks request, .sleeps (max 0 delay)]) :=
    { led := ⟨deeds, max 0 delay, rfl, le_max_left _ _, leads⟩
      ahead := by omega
      wakes := by
        rw [sleeps]
        show scene.now + delay = _ ∨ scene.now + delay ≤ scene.now ∧ _
        omega
      putOff
      finishes }
  have asleep := ((settled.note [.asks request, .sleeps (max 0 delay)]).move calm).sleep waiter
    rfl rfl noted waits
  refine ⟨asleep.act others, Goes.others goes rfl rfl, ?_⟩
  intro _ nobody
  exact absurd nobody (List.append_ne_nil_of_right_ne_nil _ (List.cons_ne_nil _ _))

theorem keeps (coherent : scene.Coherent gauge programs begin) (step : scene.Step gauge next) :
    next.Coherent gauge programs begin := by
  cases step with
  | @ends task result others active =>
      obtain ⟨settled, ⟨deeds, shows, arrived, leads⟩, goes⟩ := coherent.head active
      have noted : (scene.noted task [.ends]).filter _ = _ := noted_self shows arrived rfl
      refine ⟨((settled.note _).finish noted leads).act others, Goes.others goes rfl rfl, ?_⟩
      intro _ _ _
      exact ⟨⟨scene.now, task, .ends⟩, List.mem_append_right _ List.mem_cons_self, rfl⟩
  | @replied task request goesOn others state reply active calm counts sound =>
      obtain ⟨settled, ⟨deeds, shows, arrived, leads⟩, goes⟩ := coherent.head active
      have noted : (scene.noted task [.asks request, .hears request reply]).filter _ = _ :=
        noted_self shows arrived (by simp [stamp])
      refine ⟨((settled.note _).move calm).act _, ?_,
        fun idle => absurd idle (List.cons_ne_nil _ _)⟩
      refine List.forall_mem_cons.mpr ⟨⟨_, noted, ?_, ?_⟩, Goes.others goes rfl rfl⟩
      · simpa using arrived
      · exact leads.trans (.atOnce (arrived.symm ▸ sound) .here)
  | @delayed task request goesOn others state delay finish active slow kept finishes =>
      refine coherent.fallAsleep active (kept.calm coherent.settled.calm) delay (some finish)
        (fun missing => absurd missing (Option.some_ne_none _)) ?_
      rintro _ ⟨⟩
      exact ⟨slow, finishes⟩
  | @putOff task request goesOn others state delay active slot calm counts late busy =>
      exact coherent.fallAsleep active calm delay none (fun _ => slot) fun _ present =>
        absurd present.symm (Option.some_ne_none _)
  | @woken waiter state reply idle first delayed slow kept sound =>
      have settled := coherent.settled
      rw [idle] at settled
      obtain ⟨deeds, shows, waits, arrived, picked⟩ := settled.pick first
      obtain ⟨before, delay, rfl, late, leads⟩ := waits.led
      let awake : Scene σ α :=
        { scene with
          now := max scene.now waiter.wake
          waiters := scene.waiters.filter (·.registration != waiter.registration) }
      have told : awake.Shows begin waiter.task _ := shows
      have noted : (awake.noted waiter.task [.hears waiter.request reply]).filter _ = _ :=
        noted_self told arrived.symm rfl
      have moved := (picked.note [.hears waiter.request reply]).move
        (kept.calm coherent.settled.calm)
      refine ⟨moved.act [(waiter.task, waiter.next reply)], ?_,
        fun idle => absurd idle (List.cons_ne_nil _ _)⟩
      refine List.forall_mem_singleton.mpr ⟨_, noted, ?_, ?_⟩
      · simpa using arrived.symm
      · have due : max scene.now waiter.wake = begin + slept before + delay := by
          rw [arrived]
          simp [Int.add_assoc]
        rw [List.append_assoc]
        exact leads.trans (.later slow late (due ▸ sound) .here)
  | @again waiter idle first putOff =>
      have settled := coherent.settled
      rw [idle] at settled
      obtain ⟨deeds, shows, waits, arrived, picked⟩ := settled.pick first
      obtain ⟨before, delay, rfl, late, leads⟩ := waits.led
      refine ⟨picked.act _, ?_, fun idle => absurd idle (List.cons_ne_nil _ _)⟩
      refine List.forall_mem_singleton.mpr ⟨_, shows, arrived.symm, ?_⟩
      exact leads.trans (.again (waits.putOff putOff) late .here)

theorem run (coherent : scene.Coherent gauge programs begin) (keeps : host.KeepsTime gauge)
    (bounded : Bounded good programs) (steps : Nat) :
    (scene.run host steps).Coherent gauge programs begin :=
  run_keeps host (Coherent gauge programs begin)
    (fun sofar goesOn => sofar.keeps (sofar.steps keeps bounded goesOn)) coherent steps

end Coherent

theorem start_coherent {moment : Moment σ} (calm : gauge.Calm moment.state)
    (programs : List (Program α)) :
    (start moment programs).Coherent gauge programs moment.now := by
  constructor
  · exact
      { calm
        tasks := by
          simp only [start, List.map_map, List.map_nil, List.append_nil]
          refine .of_eq ((List.map_congr_left fun _ _ => rfl).trans (List.zipIdx_map_snd 0 programs)
            |>.trans (List.range_eq_range' ..).symm)
        ordered := .nil
        below := fun _ member => by cases member
        waits := fun _ member => by cases member
        ended := fun _ member => by cases member
        inside := fun _ member => by cases member
        past := fun _ member => by cases member
        sorted := .nil }
  · intro entry member
    obtain ⟨⟨program, task⟩, isProgram, rfl⟩ := List.mem_map.mp member
    refine ⟨[], rfl, Int.add_zero _, program, ?_, .here⟩
    exact (List.mk_mem_zipIdx_iff_getElem? ..).mp isProgram
  · intro idle _ nonempty
    exact absurd (List.zipIdx_eq_nil_iff.mp (List.map_eq_nil_iff.mp idle)) nonempty

end Scene

end WebHarvest
