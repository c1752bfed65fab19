import Mathlib.Order.Lattice.Nat
import WebHarvest.Proofs.Program.Coherence

/-!
# All programs end

Programs that a host serves, and each of which ends within a number of requests, all end when they
run together. A step brings a program nearer to its end, or lets it wait for a slot again; that
cannot go on longer than until the limiter has to give way.
-/

set_option autoImplicit false

namespace WebHarvest

variable {σ α : Type} {gauge : Gauge σ} {host : Host σ} {good : α → Prop}

/-- The number of requests within which a program ends. -/
noncomputable def Program.cost (good : α → Prop) (program : Program α) : Nat :=
  sInf {bound | program.Within Request.IsServed good bound}

namespace Program

theorem within_cost {program : Program α}
    (bounded : ∃ bound, program.Within Request.IsServed good bound) :
    program.Within Request.IsServed good (program.cost good) :=
  Nat.sInf_mem bounded

theorem cost_next {request : Request} {next : request.Reply → Program α}
    (bounded : ∃ bound, (Program.ask request next).Within Request.IsServed good bound) {time : Int}
    {reply : request.Reply} (sound : request.Sound time reply) :
    (next reply).cost good < (Program.ask request next).cost good := by
  have within := within_cost bounded
  generalize (Program.ask request next).cost good = least at within
  cases within with
  | ask own goesOn => exact Nat.lt_succ_of_le (Nat.sInf_le (goesOn time reply sound))

end Program

/-- The requests that are left to a waiter. One more is due when its request was put off. -/
noncomputable def Waiter.cost (good : α → Prop) (waiter : Waiter σ α) : Nat :=
  (Program.ask waiter.request waiter.next).cost good + if waiter.finish.isNone then 1 else 0

namespace Scene

/-- How many requests are left at most, and who has not ended yet. -/
noncomputable def effort (good : α → Prop) (scene : Scene σ α) : Nat :=
  (scene.active.map fun entry => entry.2.cost good + 1).sum +
    (scene.waiters.map (·.cost good)).sum

/-- How much earlier than a time the programs go on, altogether. -/
def patience (time : Int) (scene : Scene σ α) : Nat :=
  (scene.active.map fun _ => (time - scene.now).toNat).sum +
    (scene.waiters.map fun waiter => (time - max scene.now waiter.wake).toNat).sum

/-- What is left to happen before a time as long as no request is saved. -/
def haste (time : Int) (scene : Scene σ α) : Nat := 2 * scene.patience time + scene.waiters.length

variable {scene next : Scene σ α} {programs : List (Program α)} {begin time : Int}

/-- Waiters stand in the order of their registration, and every program ends within a number of
requests that the host serves. -/
structure Orderly (good : α → Prop) (scene : Scene σ α) : Prop where
  ordered : scene.waiters.Pairwise (·.registration < ·.registration)
  below : ∀ waiter ∈ scene.waiters, waiter.registration < scene.registered
  going : ∀ entry ∈ scene.active, ∃ bound, entry.2.Within Request.IsServed good bound
  waiting : ∀ waiter ∈ scene.waiters,
    ∃ bound, (Program.ask waiter.request waiter.next).Within Request.IsServed good bound

theorem Coherent.orderly (coherent : scene.Coherent gauge programs begin)
    (bounded : Bounded good programs) : scene.Orderly good where
  ordered := coherent.settled.ordered
  below := coherent.settled.below
  going := by
    intro entry member
    obtain ⟨deeds, -, -, leads⟩ := coherent.goes entry member
    exact bounded.leads leads
  waiting := by
    intro waiter member
    obtain ⟨deeds, -, waits⟩ := coherent.settled.waits waiter member
    obtain ⟨before, delay, -, -, leads⟩ := waits.led
    exact bounded.leads leads

theorem woken_nearer {waiter : Waiter σ α} {task : Nat} {program : Program α}
    (ordered : scene.waiters.Pairwise (·.registration < ·.registration))
    (idle : scene.active = []) (member : waiter ∈ scene.waiters)
    (now : next.now = max scene.now waiter.wake) (active : next.active = [(task, program)])
    (waiters : next.waiters = scene.waiters.filter (·.registration != waiter.registration))
    (cheaper : program.cost good + 1 ≤ waiter.cost good) (time : Int) :
    next.effort good ≤ scene.effort good ∧ next.haste time < scene.haste time := by
  obtain ⟨before, after, split, others⟩ := Waiter.split_of_mem ordered member
  rw [others] at waiters
  constructor
  · simp only [effort, idle, active, waiters, split, List.map_append, List.map_cons,
      List.map_nil, List.sum_append, List.sum_cons, List.sum_nil]
    omega
  · have sooner : ∀ some : List (Waiter σ α),
        (some.map fun other => (time - max next.now other.wake).toNat).sum ≤
          (some.map fun other => (time - max scene.now other.wake).toNat).sum := by
      intro some
      refine List.sum_le_sum fun other _ => ?_
      omega
    have first := sooner before
    have second := sooner after
    simp only [haste, patience, idle, active, waiters, split, List.map_append, List.map_cons,
      List.map_nil, List.sum_append, List.sum_cons, List.sum_nil,
      List.length_append, List.length_cons]
    omega

/-- A step saves a request, or comes nearer to the time at which the limiter has to give way. -/
theorem Orderly.nearer (orderly : scene.Orderly good) (step : scene.Step gauge next)
    (free : gauge.FreeBy scene.state time) :
    next.effort good < scene.effort good ∨
      (next.effort good ≤ scene.effort good ∧ next.haste time < scene.haste time) ∧
        gauge.FreeBy next.state time := by
  cases step with
  | @ends task result others active =>
      refine Or.inl ?_
      simp only [effort, active, List.map_cons, List.sum_cons]
      omega
  | @replied task request goesOn others state reply active calm counts sound =>
      refine Or.inl ?_
      have less := Program.cost_next (orderly.going _ (active ▸ List.mem_cons_self)) sound
      simp only [effort, active, List.map_cons, List.sum_cons]
      omega
  | @delayed task request goesOn others state delay finish active slow kept finishes =>
      refine Or.inl ?_
      simp only [effort, active, List.map_append, List.map_cons, List.map_nil, List.sum_append,
        List.sum_cons, List.sum_nil, Waiter.cost]
      simp
      omega
  | @putOff task request goesOn others state delay active slot calm counts late busy =>
      obtain ⟨stillFree, before⟩ := busy time free
      refine Or.inr ⟨⟨?_, ?_⟩, stillFree⟩
      · simp only [effort, active, List.map_append, List.map_cons, List.map_nil, List.sum_append,
          List.sum_cons, List.sum_nil, Waiter.cost]
        simp
        omega
      · simp only [haste, patience, active, List.map_append, List.map_cons, List.map_nil,
          List.sum_append, List.sum_cons, List.sum_nil, List.length_append, List.length_cons,
          List.length_nil]
        omega
  | @woken waiter state reply idle first delayed slow kept sound =>
      obtain ⟨member, -⟩ := Waiter.earliest_some first
      have less := Program.cost_next (orderly.waiting waiter member) sound
      have cheaper : (waiter.next reply).cost good + 1 ≤ waiter.cost good := by
        rw [Waiter.cost]
        omega
      exact Or.inr ⟨woken_nearer orderly.ordered idle member rfl rfl rfl cheaper time,
        kept.freeBy free⟩
  | @again waiter idle first putOff =>
      obtain ⟨member, -⟩ := Waiter.earliest_some first
      have cheaper : (Program.ask waiter.request waiter.next).cost good + 1 ≤
          waiter.cost good := by
        rw [Waiter.cost, putOff]
        exact Nat.le_refl _
      exact Or.inr ⟨woken_nearer orderly.ordered idle member rfl rfl rfl cheaper time,
        free⟩

theorem Orderly.sleep (orderly : scene.Orderly good) {task : Nat} {request : Request}
    {goesOn : request.Reply → Program α} {others : List (Nat × Program α)}
    (active : scene.active = (task, .ask request goesOn) :: others) (state : σ) (delay : Int)
    (finish : Option (Int → σ → σ × request.Reply)) (log : List Entry) :
    ({ scene with
      state
      registered := scene.registered + 1
      active := others
      waiters := scene.waiters ++
        [⟨task, scene.now + delay, scene.registered, request, goesOn, finish⟩]
      log } : Scene σ α).Orderly good := by
  have going := orderly.going
  rw [active, List.forall_mem_cons] at going
  constructor
  · refine List.pairwise_append.mpr ⟨orderly.ordered, List.pairwise_singleton _ _, ?_⟩
    intro earlier isEarlier later isLater
    obtain rfl := List.mem_singleton.mp isLater
    exact orderly.below earlier isEarlier
  · simp only [List.forall_mem_append, List.forall_mem_singleton]
    exact ⟨fun earlier isEarlier => Nat.lt_succ_of_lt (orderly.below earlier isEarlier),
      Nat.lt_succ_self _⟩
  · exact going.2
  · simp only [List.forall_mem_append, List.forall_mem_singleton]
    exact ⟨orderly.waiting, going.1⟩

theorem Orderly.keeps (orderly : scene.Orderly good) (step : scene.Step gauge next) :
    next.Orderly good := by
  cases step with
  | @ends task result others active =>
      have going := orderly.going
      rw [active, List.forall_mem_cons] at going
      exact { orderly with going := going.2 }
  | @replied task request goesOn others state reply active calm counts sound =>
      have going := orderly.going
      rw [active, List.forall_mem_cons] at going
      obtain ⟨⟨bound, within⟩, rest⟩ := going
      cases within with
      | ask _ next =>
          exact { orderly with going := List.forall_mem_cons.mpr ⟨⟨_, next _ _ sound⟩, rest⟩ }
  | @delayed task request goesOn others state delay finish active slow kept finishes =>
      exact orderly.sleep active state delay (some finish) _
  | @putOff task request goesOn others state delay active slot calm counts late busy =>
      exact orderly.sleep active state delay none _
  | @woken waiter state reply idle first delayed slow kept sound =>
      obtain ⟨bound, within⟩ := orderly.waiting waiter (Waiter.earliest_some first).1
      cases within with
      | ask _ next =>
          exact ⟨orderly.ordered.filter _, fun other isOther =>
            orderly.below other (List.mem_filter.mp isOther).1,
            List.forall_mem_singleton.mpr ⟨_, next _ _ sound⟩, fun other isOther =>
            orderly.waiting other (List.mem_filter.mp isOther).1⟩
  | @again waiter idle first putOff =>
      exact ⟨orderly.ordered.filter _, fun other isOther =>
        orderly.below other (List.mem_filter.mp isOther).1,
        List.forall_mem_singleton.mpr (orderly.waiting waiter (Waiter.earliest_some first).1),
        fun other isOther => orderly.waiting other (List.mem_filter.mp isOther).1⟩

theorem exists_halted_of_steps {property : Scene σ α → Prop}
    (steps : ∀ {scene next}, property scene → scene.step host = some next →
      scene.Step gauge next ∧ property next)
    (orderly : ∀ {scene}, property scene → scene.Orderly good) (holds : property scene) :
    ∃ steps, (scene.run host steps).step host = none := by
  -- As long as no request is saved, the limiter gives way at a time that stays the same.
  induction left : scene.effort good using Nat.strong_induction_on generalizing scene with
  | _ requests fewer =>
    obtain ⟨time, free⟩ := (gauge.limiter scene.state).exists_freeBy
    induction rush : scene.haste time using Nat.strong_induction_on generalizing scene with
    | _ span shorter =>
      cases goesOn : scene.step host with
      | none => exact ⟨0, goesOn⟩
      | some next =>
          obtain ⟨step, holdsNext⟩ := steps holds goesOn
          have stays : ∀ steps, (next.run host steps).step host = none →
              ∃ steps, (scene.run host steps).step host = none := fun steps halted =>
            ⟨steps + 1, by rwa [run_of_step goesOn]⟩
          rcases (orderly holds).nearer step free with less | ⟨⟨most, closer⟩, stillFree⟩
          · obtain ⟨steps, halted⟩ := fewer _ (left ▸ less) holdsNext rfl
            exact stays steps halted
          · rcases Nat.lt_or_eq_of_le most with less | same
            · obtain ⟨steps, halted⟩ := fewer _ (left ▸ less) holdsNext rfl
              exact stays steps halted
            · obtain ⟨steps, halted⟩ :=
                shorter _ (rush ▸ closer) holdsNext (same.trans left) stillFree rfl
              exact stays steps halted

theorem Coherent.exists_halted (coherent : scene.Coherent gauge programs begin)
    (keeps : host.KeepsTime gauge) (bounded : Bounded good programs) :
    ∃ steps, (scene.run host steps).step host = none :=
  exists_halted_of_steps
    (fun sofar goesOn =>
      have step := sofar.steps keeps bounded goesOn
      ⟨step, sofar.keeps step⟩)
    (fun sofar => sofar.orderly bounded) coherent

theorem Coherent.ended_good (coherent : scene.Coherent gauge programs begin)
    (bounded : Bounded good programs) {entry : Nat × α} (member : entry ∈ scene.finished) :
    good entry.2 := by
  obtain ⟨deeds, -, leads⟩ := coherent.settled.ended entry member
  obtain ⟨bound, within⟩ := bounded.leads leads
  cases within with
  | done holds => exact holds

/-- When nobody goes on or waits, every program has ended, and the log says how. -/
theorem Coherent.all_ended (coherent : scene.Coherent gauge programs begin)
    (idle : scene.active = []) (nobody : scene.waiters = []) {task : Nat}
    (inside : task < programs.length) :
    ∃ result deeds, (task, result) ∈ scene.finished ∧
      scene.Shows begin task (deeds ++ [.ends]) ∧
      Program.Led gauge.atOnce begin programs[task] deeds (.done result) := by
  have tasks := coherent.settled.tasks
  rw [idle, nobody] at tasks
  have member : task ∈ scene.finished.map (·.1) := tasks.mem_iff.mpr (List.mem_range.mpr inside)
  obtain ⟨⟨number, result⟩, isEntry, rfl⟩ := List.mem_map.mp member
  obtain ⟨deeds, shows, program, isProgram, led⟩ := coherent.settled.ended _ isEntry
  rw [List.getElem?_eq_getElem inside] at isProgram
  obtain rfl := Option.some.inj isProgram
  exact ⟨result, deeds, isEntry, shows, led⟩

end Scene

/-- A moment at which no program is under way. -/
structure Gauge.Quiet (gauge : Gauge σ) (moment : Moment σ) : Prop where
  calm : gauge.Calm moment.state
  alone : moment.strays = []

/-- Programs that each end within a number of requests come to their ends together, and what is
seen of them until then is the log of a scene in which nobody goes on or waits. -/
theorem Moment.runAll_ends {moment : Moment σ} (quiet : gauge.Quiet moment)
    (keeps : host.KeepsTime gauge) {programs : List (Program α)}
    (bounded : Scene.Bounded good programs)
    {stops : α → Bool} (goes : ∀ result, good result → stops result = false) :
    ∃ enough steps final, (Scene.start moment programs).run host steps = final ∧
      final.Coherent gauge programs moment.now ∧ final.active = [] ∧ final.waiters = [] ∧
      gauge.Quiet final.schedule.rest ∧
      ∀ more, enough ≤ more →
        moment.runAll host more stops programs = (final.schedule.rest, final.finished) ∧
        moment.record host more programs = final.log := by
  have started := Scene.start_coherent quiet.calm programs
  obtain ⟨steps, halted⟩ := started.exists_halted keeps bounded
  have coherent := started.run keeps bounded steps
  obtain ⟨idle, nobody⟩ := (Scene.step_eq_none host).mp halted
  obtain ⟨enough, runs⟩ := runAll_of_halted quiet.alone halted fun entry member =>
    goes entry.2 (coherent.ended_good bounded member)
  refine ⟨enough, steps, _, rfl, coherent, idle, nobody, ⟨coherent.settled.calm, ?_⟩, runs⟩
  rw [Schedule.rest, Scene.schedule, nobody]
  rfl

/-- One program, performed by itself, is all that is seen. -/
theorem Moment.perform_ends {moment : Moment σ} (quiet : gauge.Quiet moment)
    (keeps : host.KeepsTime gauge) {action : Action α} {good : Except Failure α → Prop}
    {bound : Nat} (within : action.run.Within Request.IsServed good bound) :
    ∃ enough after outcome deeds, good outcome ∧ gauge.Quiet after ∧
      Program.Led gauge.atOnce moment.now action.run deeds (.done outcome) ∧
      after.now = moment.now + slept deeds ∧
      ∀ more, enough ≤ more →
        moment.perform host more action = (after, outcome) ∧
        moment.record host more [action.run] = stamp 0 moment.now (deeds ++ [.ends]) := by
  have goes : ∀ outcome : Except Failure α, good outcome →
      (fun _ : Except Failure α => false) outcome = false := fun _ _ => rfl
  obtain ⟨enough, steps, final, -, coherent, idle, nobody, quietAfter, runs⟩ :=
    Moment.runAll_ends quiet keeps (List.forall_mem_singleton.mpr ⟨bound, within⟩) goes
  obtain ⟨outcome, deeds, member, shows, led⟩ :=
    coherent.all_ended idle nobody (Nat.lt_succ_self 0)
  obtain ⟨entry, finished⟩ : ∃ entry, final.finished = [entry] := by
    have tasks := coherent.settled.tasks.length_eq
    rw [idle, nobody, List.length_range] at tasks
    exact List.length_eq_one_iff.mp (by simpa using tasks)
  obtain rfl : (0, outcome) = entry := by simpa [finished] using member
  have own : final.log.filter (·.task == 0) = final.log := by
    rw [List.filter_eq_self]
    intro entry isEntry
    have inside := coherent.settled.inside entry isEntry
    rw [List.length_singleton] at inside
    exact beq_iff_eq.mpr (by omega)
  have log := own.symm.trans shows
  have whole : slept (deeds ++ [.ends]) = slept deeds := by simp
  have arrived : final.now = moment.now + slept deeds := by
    apply le_antisymm
    · obtain ⟨entry, isEntry, time⟩ := coherent.current idle nobody nofun
      have forward : ∀ deed ∈ deeds ++ [Deed.ends], 0 ≤ deed.span := by
        simp only [List.forall_mem_append, List.forall_mem_singleton]
        exact ⟨led.forward, le_rfl⟩
      rw [log] at isEntry
      rw [← time, ← whole]
      exact (mem_stamp forward isEntry).2.2.2
    · refine coherent.settled.past ⟨moment.now + slept deeds, 0, .ends⟩ ?_
      rw [log, stamp_append]
      exact List.mem_append_right _ List.mem_cons_self
  refine ⟨enough, final.schedule.rest, outcome, deeds, ?_, quietAfter, led, arrived, ?_⟩
  · exact coherent.ended_good (List.forall_mem_singleton.mpr ⟨bound, within⟩) member
  · intro more most
    obtain ⟨ran, seen⟩ := runs more most
    refine ⟨?_, seen.trans log⟩
    rw [perform, run, ran, finished]
    rfl

/-- A request of the program that runs, to which the reply comes at once. -/
theorem Scene.step_of_atOnce (keeps : host.KeepsTime gauge) {scene : Scene σ α}
    (calm : gauge.Calm scene.state) {task : Nat} {request : Request}
    {next : request.Reply → Program α} {others : List (Nat × Program α)}
    (active : scene.active = (task, .ask request next) :: others) (served : request.IsServed)
    (prompt : gauge.atOnce request) (other : ∀ scope target, request ≠ .takeSlot scope target) :
    ∃ state reply, gauge.Calm state ∧
      request.Counts (gauge.counts scene.state) (gauge.counts state) reply ∧
      scene.step host = some { scene with
        state
        active := (task, next reply) :: others
        log := scene.noted task [.asks request, .hears request reply] } := by
  have treats := keeps.treats served scene.now calm
  simp only [step, active, proceed]
  rcases given : host.answer request scene.now scene.state with ⟨state, answer⟩
  rw [given] at treats
  cases treats with
  | now calm counts sound => exact ⟨state, _, calm, counts, rfl⟩
  | later slow => exact absurd prompt slow
  | putOff slot =>
      obtain ⟨scope, target, same⟩ := slot
      exact absurd same (other scope target)

end WebHarvest
