import WebHarvest.Proofs.Batch.Work
import WebHarvest.Proofs.Program.Ending
import WebHarvest.Proofs.Program.Reach
import WebHarvest.Proofs.Simulation.Slots

/-!
# Tasks of other domains

Tasks that acquire targets of several domains share a limiter with quotas for domains only. When
the tasks of all other domains are taken away, those of a domain get their slots at the same times
and in the same order: the two runs go side by side, and the one without the others stands still
whenever somebody goes on who is not in it. The clocks may differ while nobody of the domain goes
on, and so do the numbers of the registrations; the order of the registrations is the same.
-/

set_option autoImplicit false

namespace WebHarvest

open RateLimit (Scope SlidingWindow)
open Simulation (World)

variable {σ α : Type}

section Slots

/-- A request for a slot that a target of a domain has to pass. -/
def Request.IsSlotOf (domain : Option String) (request : Request) : Prop :=
  ∃ scope ∈ Scope.global :: (domain.map Scope.domain).toList, ∃ target,
    request = .takeSlot scope target

end Slots

/-- A task that waits for some time, and then acquires targets of one domain, one after another. -/
structure Errand where
  domain : Option String
  delay : Nat
  targets : List String
  own : ∀ target ∈ targets, Url.host? target = domain

namespace Errand

def program (errand : Errand) : Program (Except Failure Unit) :=
  (errand.targets.forM acquire).run

end Errand

/-- A program that begins at the end of a sleep. -/
def Waiter.starting (task : Nat) (wake : Int) (registration : Nat) (program : Program α) :
    Waiter σ α :=
  ⟨task, wake, registration, .now, fun _ => program, some fun woken state => (state, woken)⟩

/-- Tasks with their numbers, all of which have just fallen asleep. -/
def Scene.errands (moment : Moment (World Int)) (tasks : List (Errand × Nat)) :
    Scene (World Int) (Except Failure Unit) where
  now := moment.now
  state := moment.state
  registered := moment.registered + tasks.length
  waiters := tasks.zipIdx.map fun ((errand, task), place) =>
    .starting task (moment.now + errand.delay) (moment.registered + place) errand.program

section Grants

/-- The time, the task and the target when a scope has let a target through. -/
def Entry.granted? (scope : Scope) (entry : Entry) : Option (Int × Nat × String) :=
  match entry.deed with
  | .hears (.takeSlot asked target) (.ok ()) =>
      if asked = scope then some (entry.time, entry.task, target) else none
  | _ => none

/-- Whom a scope has let through and when, in the order in which it did. -/
def grants (scope : Scope) (log : List Entry) : List (Int × Nat × String) :=
  log.filterMap (Entry.granted? scope)

variable {scope : Scope} {log : List Entry}

theorem grants_append (more : List Entry) :
    grants scope (log ++ more) = grants scope log ++ grants scope more :=
  List.filterMap_append

@[simp] theorem granted?_asks (time : Int) (task : Nat) (request : Request) :
    Entry.granted? scope ⟨time, task, .asks request⟩ = none := rfl

@[simp] theorem granted?_sleeps (time : Int) (task : Nat) (delay : Int) :
    Entry.granted? scope ⟨time, task, .sleeps delay⟩ = none := rfl

@[simp] theorem granted?_ends (time : Int) (task : Nat) :
    Entry.granted? scope ⟨time, task, .ends⟩ = none := rfl

theorem granted?_of_ne {asked : Scope} (other : asked ≠ scope) (time : Int) (task : Nat)
    (target : String) (reply : Except Failure Unit) :
    Entry.granted? scope ⟨time, task, .hears (.takeSlot asked target) reply⟩ = none := by
  cases reply with
  | ok => exact if_neg other
  | error failure => rfl

variable {scene other : Scene σ α} {task : Nat} {deeds : List Deed}

theorem grants_noted_of_none
    (nothing : ∀ deed ∈ deeds, Entry.granted? scope ⟨scene.now, task, deed⟩ = none) :
    grants scope (scene.noted task deeds) = grants scope scene.log := by
  have silent : grants scope (deeds.map fun deed => ⟨scene.now, task, deed⟩) = [] := by
    rw [grants, List.filterMap_map]
    exact List.filterMap_eq_nil_iff.mpr nothing
  rw [Scene.noted, grants_append, silent, List.append_nil]

theorem grants_noted (now : other.now = scene.now)
    (granted : grants scope other.log = grants scope scene.log) :
    grants scope (other.noted task deeds) = grants scope (scene.noted task deeds) := by
  rw [Scene.noted, Scene.noted, grants_append, grants_append, granted, now]

end Grants

namespace Simulation.World

/-- What limits tasks is the domain alone. -/
def domains : Gauge (World Int) where
  Ready world := world.limiter.windowOf .global = none
  limiter := World.limiter
  counts _ := []
  atOnce request := ∃ scope target, request = .takeSlot scope target

theorem announces_ordinary (world : World Int) {failure : Failure}
    (fails : world.announces = .error failure) : failure.isOrdinary = true := by
  unfold announces Emitter.takesLines at fails
  split at fails
  · cases fails
  · split at fails
    · cases fails
    next path _ =>
      cases reached : world.files.target path with
      | ok found =>
          rw [reached] at fails
          cases fails
      | error fault =>
          rw [reached] at fails
          cases fails
          exact FileTree.target_ordinary reached

theorem verdict_cases (world : World Int) (delay : Option Int) :
    (∃ reply, world.verdict delay = .now reply) ∨
      ∃ pause, world.verdict delay = .putOff pause := by
  cases delay with
  | none => exact .inl ⟨_, rfl⟩
  | some delay =>
      rw [verdict]
      cases world.announces with
      | error failure => exact .inl ⟨_, rfl⟩
      | ok => exact .inr ⟨_, rfl⟩

/-- The limiter decides about slots, and lets everybody through in the end. -/
theorem domains_treats {world : World Int} (calm : domains.Calm world) (scope : Scope)
    (target : String) (now : Int) :
    domains.Treats (.takeSlot scope target) now world
      (World.host.answer (.takeSlot scope target) now world) := by
  obtain ⟨limiter, polled, replaced⟩ := world.limiter.poll_ask scope now
  obtain ⟨next, answer, settled, same, -⟩ := world.takeSlot_spec now scope target
  obtain ⟨after, opened, progress⟩ := RateLimit.Limiter.poll_progress calm.isOpen scope now
  rw [answer]
  rw [← replaced] at same
  have ready : domains.Ready next := by
    show next.limiter.windowOf .global = none
    rw [same, replaced, Function.update_apply]
    split
    next isGlobal => rw [← isGlobal, calm.ready, RateLimit.ask]
    next => exact calm.ready
  rcases progress with granted | ⟨delay, late, refused, busy⟩
  · obtain ⟨rfl, wait⟩ := Prod.mk.inj (polled.symm.trans granted)
    rw [Except.ok.inj wait]
    refine .now ⟨ready, ?_⟩ rfl (by rintro _ ⟨⟩)
    intro other window held
    exact opened other window (same ▸ held)
  · obtain ⟨rfl, wait⟩ := Prod.mk.inj (polled.symm.trans refused)
    have calmNext : domains.Calm next := by
      refine ⟨ready, fun other window held => ?_⟩
      exact opened other window (same ▸ held)
    rw [Except.ok.inj wait, verdict]
    cases announced : world.announces with
    | error failure =>
        refine .now calmNext rfl ?_
        rintro _ ⟨⟩
        exact world.announces_ordinary announced
    | ok =>
        refine .putOff ⟨scope, target, rfl⟩ calmNext rfl ?_ ?_
        · split
          · omega
          · exact late
        · intro time free
          obtain ⟨freeNext, before⟩ := busy time free
          refine ⟨fun other window held => ?_, before⟩
          exact freeNext other window (same ▸ held)

end Simulation.World

/-- A waiter that wants to go on with requests of a kind, or to begin. -/
inductive Waiter.Due (allowed : Request → Prop) : Waiter σ α → Prop where
  | begin {task registration : Nat} {wake : Int} {program : Program α}
      (asks : program.Asks allowed) : Due allowed (.starting task wake registration program)
  | again {task registration : Nat} {wake : Int} {request : Request}
      {next : request.Reply → Program α} (asks : (Program.ask request next).Asks allowed) :
      Due allowed ⟨task, wake, registration, request, next, none⟩

open Simulation.World (domains)

/-- Tasks that ask for slots of their own domains only, and sleep until times to come. -/
structure Scene.Crew (domainOf : Nat → Option String) (good : α → Prop)
    (scene : Scene (World Int) α) : Prop where
  calm : domains.Calm scene.state
  orderly : scene.Orderly good
  asks : ∀ entry ∈ scene.active, entry.2.Asks (Request.IsSlotOf (domainOf entry.1))
  due : ∀ waiter ∈ scene.waiters, waiter.Due (Request.IsSlotOf (domainOf waiter.task))
  ahead : ∀ waiter ∈ scene.waiters, scene.now ≤ waiter.wake

namespace Scene.Crew

variable {domainOf : Nat → Option String} {good : α → Prop} {scene next : Scene (World Int) α}

theorem steps (crew : scene.Crew domainOf good) (steps : scene.step World.host = some next) :
    scene.Step domains next := by
  apply step_of_treats ?_ ?_ steps
  · intro task request others goesOn active
    have asks := crew.asks (task, .ask request goesOn) (active ▸ List.mem_cons_self)
    cases asks with
    | ask own _ =>
        obtain ⟨scope, -, target, rfl⟩ := own
        exact World.domains_treats crew.calm scope target scene.now
  · intro waiter finish member finishes
    have due := crew.due waiter member
    cases due with
    | begin asks =>
        cases finishes
        exact ⟨nofun, ⟨crew.calm.ready, rfl, rfl⟩, rfl⟩
    | again asks => cases finishes

/-- Those who do not wake up yet still sleep until times to come. -/
theorem others_wait (crew : scene.Crew domainOf good) {first : Waiter (World Int) α}
    (found : Waiter.earliest scene.waiters = some first) :
    ∀ other ∈ scene.waiters.filter (·.registration != first.registration),
      other.Due (Request.IsSlotOf (domainOf other.task)) ∧
        max scene.now first.wake ≤ other.wake := by
  obtain ⟨member, least⟩ := Waiter.earliest_some found
  have ahead := crew.ahead first member
  intro other isOther
  have isWaiter := (List.mem_filter.mp isOther).1
  have later := least other isWaiter
  exact ⟨crew.due other isWaiter, by omega⟩

theorem keeps (crew : scene.Crew domainOf good) (step : scene.Step domains next) :
    next.Crew domainOf good := by
  have orderly := crew.orderly.keeps step
  cases step with
  | @ends task result others active =>
      have asks := crew.asks
      rw [active, List.forall_mem_cons] at asks
      exact ⟨crew.calm, orderly, asks.2, crew.due, crew.ahead⟩
  | @replied task request goesOn others state reply active calm counts sound =>
      have asks := crew.asks
      rw [active, List.forall_mem_cons] at asks
      obtain ⟨first, rest⟩ := asks
      cases first with
      | ask own next =>
          exact ⟨calm, orderly, List.forall_mem_cons.mpr ⟨next reply, rest⟩, crew.due, crew.ahead⟩
  | @delayed task request goesOn others state delay finish active slow kept finishes =>
      have asks := crew.asks
      rw [active, List.forall_mem_cons] at asks
      cases asks.1 with
      | ask own _ =>
          obtain ⟨scope, -, target, rfl⟩ := own
          exact absurd ⟨scope, target, rfl⟩ slow
  | @putOff task request goesOn others state delay active slot calm counts late busy =>
      have asks := crew.asks
      rw [active, List.forall_mem_cons] at asks
      refine ⟨calm, orderly, asks.2, ?_, ?_⟩
      · simp only [List.forall_mem_append, List.forall_mem_singleton]
        exact ⟨crew.due, .again asks.1⟩
      · simp only [List.forall_mem_append, List.forall_mem_singleton]
        exact ⟨crew.ahead, by omega⟩
  | @woken waiter state reply idle first delayed slow kept sound =>
      have waits := crew.others_wait first
      refine ⟨kept.calm crew.calm, orderly, List.forall_mem_singleton.mpr ?_,
        fun other isOther => (waits other isOther).1, fun other isOther => (waits other isOther).2⟩
      cases crew.due waiter (Waiter.earliest_some first).1 with
      | begin asks => exact asks
      | again asks => exact absurd rfl delayed
  | @again waiter idle first putOff =>
      have waits := crew.others_wait first
      refine ⟨crew.calm, orderly, List.forall_mem_singleton.mpr ?_,
        fun other isOther => (waits other isOther).1, fun other isOther => (waits other isOther).2⟩
      cases crew.due waiter (Waiter.earliest_some first).1 with
      | begin asks => cases putOff
      | again asks => exact asks

theorem exists_halted (crew : scene.Crew domainOf good) :
    ∃ steps, (scene.run World.host steps).step World.host = none :=
  exists_halted_of_steps
    (fun sofar goesOn =>
      have step := sofar.steps goesOn
      ⟨step, sofar.keeps step⟩)
    (fun sofar => sofar.orderly) crew

end Scene.Crew

/-- A waiter without the number of its registration. -/
def Waiter.unplaced (waiter : Waiter σ α) : Waiter σ α := { waiter with registration := 0 }

theorem Waiter.wake_of_unplaced {waiter other : Waiter σ α}
    (same : waiter.unplaced = other.unplaced) : waiter.wake = other.wake := by
  simpa only [unplaced] using congrArg Waiter.wake same

theorem Waiter.exists_wake {kept : Waiter σ α → Bool} {waiters others : List (Waiter σ α)}
    (same : others.map Waiter.unplaced = (waiters.map Waiter.unplaced).filter kept)
    {other : Waiter σ α} (member : other ∈ others) :
    ∃ waiter ∈ waiters, waiter.wake = other.wake := by
  have isOne : other.unplaced ∈ (waiters.map Waiter.unplaced).filter kept :=
    same ▸ List.mem_map_of_mem member
  obtain ⟨waiter, isWaiter, unplaced⟩ := List.mem_map.mp (List.mem_filter.mp isOne).1
  exact ⟨waiter, isWaiter, wake_of_unplaced unplaced⟩

/-- Who wakes up first among all, wakes up first among the waiters that are kept. -/
theorem Waiter.earliest_of_kept {kept : Waiter σ α → Bool}
    {before after beforeKept afterKept : List (Waiter σ α)} {first own : Waiter σ α}
    (sooner : ∀ waiter ∈ before, first.wake < waiter.wake)
    (least : ∀ waiter ∈ after, first.wake ≤ waiter.wake)
    (isBefore : beforeKept.map Waiter.unplaced = (before.map Waiter.unplaced).filter kept)
    (isAfter : afterKept.map Waiter.unplaced = (after.map Waiter.unplaced).filter kept)
    (isOwn : own.unplaced = first.unplaced)
    (ordered : (beforeKept ++ own :: afterKept).Pairwise (·.registration < ·.registration)) :
    Waiter.earliest (beforeKept ++ own :: afterKept) = some own := by
  apply Waiter.earliest_of_first ordered
  · intro other isOther
    obtain ⟨waiter, isWaiter, same⟩ := Waiter.exists_wake isBefore isOther
    rw [Waiter.wake_of_unplaced isOwn, ← same]
    exact sooner waiter isWaiter
  · intro other isOther
    obtain ⟨waiter, isWaiter, same⟩ := Waiter.exists_wake isAfter isOther
    rw [Waiter.wake_of_unplaced isOwn, ← same]
    exact least waiter isWaiter

/-- Apart from its registration, it does not matter to what happens when a waiter wakes up. -/
theorem Scene.wake_of_due {allowed : Request → Prop} {waiter : Waiter σ α}
    (due : waiter.Due allowed) :
    ∃ (program : Program α) (more : Int → List Entry),
      (∀ scope time, grants scope (more time) = []) ∧
      ∀ (scene : Scene σ α) (other : Waiter σ α), other.unplaced = waiter.unplaced →
        scene.wake other =
          { scene with
            now := max scene.now waiter.wake
            waiters := scene.waiters.filter (·.registration != other.registration)
            active := [(waiter.task, program)]
            log := scene.log ++ more (max scene.now waiter.wake) } := by
  cases due with
  | @begin task registration wake program asks =>
      refine ⟨program, fun time => [⟨time, task, .hears .now time⟩], fun _ _ => rfl, ?_⟩
      rintro scene ⟨⟩ same
      cases same
      rfl
  | @again task registration wake request next asks =>
      refine ⟨.ask request next, fun _ => [], fun _ _ => rfl, ?_⟩
      rintro scene ⟨⟩ same
      cases same
      simp only [Scene.wake, List.append_nil]

namespace Scene

/-- The second scene is what a scene looks like to the tasks that are `mine`, as far as one scope of
the limiter is concerned. Its clock may be behind as long as none of them goes on. -/
structure Mirrors (mine : Nat → Bool) (scope : Scope) (scene alone : Scene (World Int) α) :
    Prop where
  settled : scene.state.Settled alone.state
  window : alone.state.limiter.windowOf scope = scene.state.limiter.windowOf scope
  active : alone.active = scene.active.filter fun entry => mine entry.1
  waiters : alone.waiters.map Waiter.unplaced =
    (scene.waiters.map Waiter.unplaced).filter fun waiter => mine waiter.task
  behind : alone.now ≤ scene.now
  together : alone.active ≠ [] → alone.now = scene.now
  granted : grants scope alone.log = grants scope scene.log

namespace Mirrors

variable {mine : Nat → Bool} {scope asked : Scope} {scene alone : Scene (World Int) α}
variable {world state : World Int} {task : Nat} {others rest : List (Nat × Program α)}
variable {target : String} {goesOn : Except Failure Unit → Program α}

/-- Another task asks for a slot elsewhere. -/
theorem hear_other (mirrors : Mirrors mine scope { scene with state, active := others } alone)
    (other : mine task = false) (apart : asked ≠ scope) (delay : Option Int) :
    Mirrors mine scope
      (scene.hear task others (.takeSlot asked target) goesOn (state, world.verdict delay))
      alone := by
  rcases world.verdict_cases delay with ⟨reply, answer⟩ | ⟨pause, answer⟩
  · rw [answer]
    refine { mirrors with active := ?_, granted := ?_ }
    · rw [mirrors.active]
      exact (List.filter_cons_of_neg (by simp [other])).symm
    · refine mirrors.granted.trans (grants_noted_of_none ?_).symm
      simp [granted?_of_ne apart]
  · rw [answer]
    refine { mirrors with waiters := ?_, granted := ?_ }
    · simp [hear, mirrors.waiters, Waiter.unplaced, other]
    · refine mirrors.granted.trans (grants_noted_of_none ?_).symm
      simp

/-- A task of both scenes is told the same. -/
theorem hear_own {after : World Int}
    (mirrors : Mirrors mine scope { scene with state, active := others }
      { alone with state := after, active := rest })
    (own : mine task = true) (now : alone.now = scene.now) (delay : Option Int) :
    Mirrors mine scope
      (scene.hear task others (.takeSlot asked target) goesOn (state, world.verdict delay))
      (alone.hear task rest (.takeSlot asked target) goesOn (after, world.verdict delay)) := by
  rcases world.verdict_cases delay with ⟨reply, answer⟩ | ⟨pause, answer⟩
  · rw [answer]
    refine { mirrors with active := ?_, together := fun _ => now, granted := ?_ }
    · have same : rest = others.filter fun entry => mine entry.1 := mirrors.active
      simp [hear, own, same]
    · exact grants_noted now mirrors.granted
  · rw [answer]
    refine { mirrors with waiters := ?_, granted := ?_ }
    · simp [hear, mirrors.waiters, Waiter.unplaced, own, now]
    · exact grants_noted now mirrors.granted

variable {domainOf : Nat → Option String} {good : α → Prop} {domain : String}
variable {next : Scene (World Int) α}

/-- A program of the domain goes on in both scenes. -/
theorem proceed_own {program : Program α}
    (mirrors : Mirrors (fun task => domainOf task == some domain) (.domain domain) scene alone)
    (crew : scene.Crew domainOf good) (crewAlone : alone.Crew domainOf good)
    (active : scene.active = (task, program) :: others) (mine : domainOf task = some domain) :
    ∃ after, Mirrors (fun task => domainOf task == some domain) (.domain domain)
        (scene.proceed World.host task others program) after ∧
      alone.step World.host = some after := by
  have asks := crew.asks (task, program) (active ▸ List.mem_cons_self)
  have same := mirrors.active
  rw [active, List.filter_cons_of_pos (by simp [mine])] at same
  have now := mirrors.together (same ▸ List.cons_ne_nil _ _)
  refine ⟨alone.proceed World.host task _ program, ?_, by rw [step, same]⟩
  cases asks with
  | done result =>
      exact { mirrors with
        active := rfl
        together := fun _ => now
        granted := grants_noted now mirrors.granted }
  | ask own goesOn =>
      obtain ⟨asked, isAsked, target, rfl⟩ := own
      have window : alone.state.limiter.windowOf asked = scene.state.limiter.windowOf asked := by
        rw [mine, Option.map_some, Option.toList_some, List.mem_pair] at isAsked
        rcases isAsked with rfl | rfl
        · exact crewAlone.calm.ready.trans crew.calm.ready.symm
        · exact mirrors.window
      obtain ⟨world, answer, settled, changed, -⟩ :=
        scene.state.takeSlot_spec scene.now asked target
      obtain ⟨after, answerAlone, settledAlone, changedAlone, -⟩ :=
        alone.state.takeSlot_spec alone.now asked target
      rw [window, now, mirrors.settled.verdict] at answerAlone
      rw [window, now] at changedAlone
      rw [Scene.proceed, Scene.proceed, answer, now, answerAlone]
      refine hear_own { mirrors with
        settled := (settled.symm.trans mirrors.settled).trans settledAlone
        window := ?_
        active := rfl
        together := fun _ => now } (by simp [mine]) now _
      rw [changed, changedAlone, Function.update_apply, Function.update_apply, mirrors.window]

/-- When a program of another domain goes on, nothing changes for those of this one. -/
theorem proceed_other {program : Program α}
    (mirrors : Mirrors (fun task => domainOf task == some domain) (.domain domain) scene alone)
    (crew : scene.Crew domainOf good) (active : scene.active = (task, program) :: others)
    (other : domainOf task ≠ some domain) :
    Mirrors (fun task => domainOf task == some domain) (.domain domain)
      (scene.proceed World.host task others program) alone := by
  have asks := crew.asks (task, program) (active ▸ List.mem_cons_self)
  have same := mirrors.active
  rw [active, List.filter_cons_of_neg (by simp [other])] at same
  cases asks with
  | done result =>
      exact { mirrors with
        active := same
        granted := mirrors.granted.trans (grants_noted_of_none (by simp)).symm }
  | ask own goesOn =>
      obtain ⟨asked, isAsked, target, rfl⟩ := own
      have apart : asked ≠ .domain domain := by
        rintro rfl
        simp only [List.mem_cons, reduceCtorEq, Option.mem_toList, Option.map_eq_some_iff,
          false_or] at isAsked
        obtain ⟨name, isName, same⟩ := isAsked
        cases same
        exact other isName
      obtain ⟨world, answer, settled, window, -⟩ :=
        scene.state.takeSlot_spec scene.now asked target
      rw [Scene.proceed, answer]
      refine hear_other { mirrors with
        settled := settled.symm.trans mirrors.settled
        window := ?_
        active := same } (by simp [other]) apart _
      rw [window, Function.update_of_ne apart.symm]
      exact mirrors.window

/-- When a waiter wakes up that belongs to another domain, the clock moves on for the others only;
else the same waiter is the first one in the second scene as well. -/
theorem wakes {first : Waiter (World Int) α}
    (mirrors : Mirrors (fun task => domainOf task == some domain) (.domain domain) scene alone)
    (crew : scene.Crew domainOf good) (crewAlone : alone.Crew domainOf good)
    (idle : scene.active = []) (found : Waiter.earliest scene.waiters = some first) :
    ∃ after, Mirrors (fun task => domainOf task == some domain) (.domain domain)
        (scene.wake first) after ∧
      (after = alone ∨ alone.step World.host = some after) := by
  have nobody : alone.active = [] := by rw [mirrors.active, idle, List.filter_nil]
  obtain ⟨before, rest, split, sooner, least⟩ :=
    Waiter.split_of_earliest crew.orderly.ordered found
  have member : first ∈ scene.waiters := (Waiter.earliest_some found).1
  obtain ⟨program, more, silent, wakes⟩ := wake_of_due (crew.due first member)
  have ordered := crew.orderly.ordered
  rw [split] at ordered
  have remaining :
      scene.waiters.filter (·.registration != first.registration) = before ++ rest := by
    rw [split]
    exact filter_key_ne Waiter.registration ordered
  have waiters := mirrors.waiters
  rw [split, List.map_append, List.map_cons, List.filter_append] at waiters
  have ahead := crew.ahead first member
  have behind := mirrors.behind
  have granted (log : List Entry) (time : Int) :
      grants (.domain domain) (log ++ more time) = grants (.domain domain) log := by
    rw [grants_append, silent, List.append_nil]
  rw [wakes scene first rfl, remaining]
  by_cases mine : domainOf first.task = some domain
  · rw [List.filter_cons_of_pos (by simp [Waiter.unplaced, mine])] at waiters
    obtain ⟨beforeAlone, others, splitAlone, isBefore, isOthers⟩ :=
      List.map_eq_append_iff.mp waiters
    obtain ⟨own, restAlone, rfl, isOwn, isRest⟩ := List.map_eq_cons_iff.mp isOthers
    have orderedAlone := crewAlone.orderly.ordered
    rw [splitAlone] at orderedAlone
    have foundAlone : Waiter.earliest alone.waiters = some own := by
      rw [splitAlone]
      exact Waiter.earliest_of_kept sooner least isBefore isRest isOwn orderedAlone
    have remainingAlone : alone.waiters.filter (·.registration != own.registration) =
        beforeAlone ++ restAlone := by
      rw [splitAlone]
      exact filter_key_ne Waiter.registration orderedAlone
    have now : max alone.now first.wake = max scene.now first.wake := by omega
    refine ⟨alone.wake own, ?_, .inr (by rw [step, nobody, foundAlone, Option.map_some])⟩
    rw [wakes alone own isOwn, remainingAlone, now]
    exact { mirrors with
      active := by rw [List.filter_cons_of_pos (by simp [mine]), List.filter_nil]
      waiters := by rw [List.map_append, isBefore, isRest, ← List.filter_append, ← List.map_append]
      behind := le_rfl
      together := fun _ => rfl
      granted := (granted _ _).trans (mirrors.granted.trans (granted _ _).symm) }
  · rw [List.filter_cons_of_neg (by simp [Waiter.unplaced, mine]), ← List.filter_append,
      ← List.map_append] at waiters
    refine ⟨alone, ?_, .inl rfl⟩
    exact { mirrors with
      active := by rw [nobody, List.filter_cons_of_neg (by simp [mine]), List.filter_nil]
      waiters
      behind := behind.trans (le_max_left _ _)
      together := fun someone => absurd nobody someone
      granted := mirrors.granted.trans (granted _ _).symm }

theorem steps (mirrors : Mirrors (fun task => domainOf task == some domain) (.domain domain)
      scene alone)
    (crew : scene.Crew domainOf good) (crewAlone : alone.Crew domainOf good)
    (steps : scene.step World.host = some next) :
    ∃ after, Mirrors (fun task => domainOf task == some domain) (.domain domain) next after ∧
      (after = alone ∨ alone.step World.host = some after) := by
  unfold step at steps
  split at steps
  next task program others active =>
    obtain rfl := Option.some.inj steps
    by_cases mine : domainOf task = some domain
    · obtain ⟨after, still, goesOn⟩ := mirrors.proceed_own crew crewAlone active mine
      exact ⟨after, still, .inr goesOn⟩
    · exact ⟨alone, mirrors.proceed_other crew active mine, .inl rfl⟩
  next idle =>
    obtain ⟨first, found, rfl⟩ := Option.map_eq_some_iff.mp steps
    exact mirrors.wakes crew crewAlone idle found

/-- The run without the others takes no more steps than the whole one. -/
theorem run (mirrors : Mirrors (fun task => domainOf task == some domain) (.domain domain)
      scene alone)
    (crew : scene.Crew domainOf good) (crewAlone : alone.Crew domainOf good) (steps : Nat) :
    ∃ fewer, fewer ≤ steps ∧
      Mirrors (fun task => domainOf task == some domain) (.domain domain)
        (scene.run World.host steps) (alone.run World.host fewer) := by
  induction steps generalizing scene alone with
  | zero => exact ⟨0, le_rfl, mirrors⟩
  | succ steps ih =>
      cases goesOn : scene.step World.host with
      | none =>
          rw [run_of_halted goesOn]
          exact ⟨0, Nat.zero_le _, mirrors⟩
      | some next =>
          rw [run_of_step goesOn]
          obtain ⟨after, mirrorsNext, rfl | goesOnAlone⟩ := mirrors.steps crew crewAlone goesOn
          · obtain ⟨fewer, atMost, whole⟩ :=
              ih mirrorsNext (crew.keeps (crew.steps goesOn)) crewAlone
            exact ⟨fewer, Nat.le_succ_of_le atMost, whole⟩
          · obtain ⟨fewer, atMost, whole⟩ := ih mirrorsNext (crew.keeps (crew.steps goesOn))
              (crewAlone.keeps (crewAlone.steps goesOnAlone))
            refine ⟨fewer + 1, Nat.succ_le_succ atMost, ?_⟩
            rwa [run_of_step goesOnAlone]

end Mirrors

section Errands

variable {moment : Moment (World Int)} {tasks : List (Errand × Nat)}

/-- In the schedule each task sleeps until its delay is over. -/
theorem errands_schedule (moment : Moment (World Int)) (tasks : List (Errand × Nat)) :
    (errands moment tasks).schedule =
      { now := moment.now
        state := moment.state
        registered := moment.registered + tasks.length
        sleepers := tasks.zipIdx.map fun ((errand, task), place) =>
          ⟨task, moment.now + errand.delay, moment.registered + place,
            fun _ world => (world, errand.program)⟩ } := by
  simp only [schedule, errands, List.map_map]
  rfl

end Errands

end Scene

end WebHarvest
