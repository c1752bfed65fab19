import WebHarvest.Proofs.Batch.Timing

/-!
# How far a batch is

A batch counts its jobs as they settle. Since nothing else can come between a job's count and the
calls that tell of it, subscribers and the progress callback hear of one settled job after the
other, whatever the jobs and the callback do and however long they wait.
-/

set_option autoImplicit false

namespace WebHarvest.Batch

open Program (Led)

/-- What tells subscribers and the progress callback that so many jobs have settled. -/
def notices (setup : Setup) (completed total : Nat) : List Request :=
  (if setup.signals then [announcement completed total] else []) ++
    if setup.progress then [.progress completed total] else []

/-- A program that has to make these requests next, before it waits for anything. Without any it
works, and it owes the notices of a settled job as soon as that job is counted. -/
inductive Owes {α : Type} (atOnce : Request → Prop) (setup : Setup) (count total : Nat) :
    List Request → Program α → Prop where
  | ends {result : α} : Owes atOnce setup count total [] (.done result)
  | works {request : Request} {next : request.Reply → Program α}
      (own : request.isBatch = false)
      (goesOn : ∀ time reply, request.Sound time reply →
        Owes atOnce setup count total [] (next reply)) :
      Owes atOnce setup count total [] (.ask request next)
  | counts {next : Nat → Program α}
      (goesOn : ∀ completed,
        Owes atOnce setup count total (notices setup completed total) (next completed)) :
      Owes atOnce setup count total [] (.ask (.countSettled count) next)
  | tells {request : Request} {owed : List Request} {next : request.Reply → Program α}
      (news : request.isNews = true) (stays : atOnce request ∨ owed = [])
      (goesOn : ∀ time reply, request.Sound time reply →
        Owes atOnce setup count total owed (next reply)) :
      Owes atOnce setup count total (request :: owed) (.ask request next)

section Programs

variable {α β : Type} {atOnce : Request → Prop} {setup : Setup} {count total completed : Nat}

theorem owes_bind {program : Program α} {next : α → Program β} {good : α → Prop} {bound : Nat}
    (within : program.Within Request.IsWork good bound)
    (rest : ∀ result, good result → Owes atOnce setup count total [] (next result)) :
    Owes atOnce setup count total [] (program.bind next) := by
  induction within with
  | done holds => exact rest _ holds
  | ask own _ ih => exact .works own.2 ih

theorem conclude_owes {next : Except Failure Unit → Program α} {time : Int}
    {reply : Except Failure Unit}
    (sound : Request.Sound time (.progress completed total) reply)
    (rest : Owes atOnce setup count total [] (next (.ok ()))) :
    Owes atOnce setup count total [] ((conclude completed total reply).bind next) := by
  cases reply with
  | ok => exact rest
  | error fault =>
      rw [conclude, if_pos (sound fault rfl)]
      exact .works rfl fun _ _ _ => rest

theorem notify_owes (once : ∀ kind payload, atOnce (.emit kind payload))
    {next : Except Failure Unit → Program α}
    (rest : Owes atOnce setup count total [] (next (.ok ()))) :
    Owes atOnce setup count total (notices setup completed total)
      ((notify setup completed total).run.bind next) := by
  have calls : Owes atOnce setup count total
      (if setup.progress then [.progress completed total] else [])
      ((call setup completed total).bind next) := by
    unfold call
    cases setup.progress with
    | false => exact rest
    | true => exact .tells rfl (Or.inr rfl) fun _ _ sound => conclude_owes sound rest
  rw [notify_run, notices]
  cases setup.signals with
  | false => exact calls
  | true =>
      refine .tells rfl (Or.inl (once _ _)) fun _ reply sound => ?_
      obtain rfl : reply = .ok () := sound.1 rfl
      exact calls

theorem settle_owes (once : ∀ kind payload, atOnce (.emit kind payload))
    {operation : BatchJob → Action Value} {job : BatchJob} {bound : Nat}
    (works : (operation job).Works bound) :
    Owes atOnce setup count total [] (settle setup count total operation job).run := by
  obtain ⟨most, ends⟩ := runJob_ends setup works
  refine owes_bind ends ?_
  rintro _ ⟨outcome, rfl⟩
  exact .counts fun completed => notify_owes once .ends

end Programs

section Logs

/-- What is seen of a batch as such: that jobs are counted, and that others are told. -/
def told (log : List Entry) : List Entry :=
  log.filter fun entry => match entry.deed with
    | .asks request => request.isBatch
    | _ => false

def asking (time : Int) (task : Nat) (requests : List Request) : List Entry :=
  requests.map fun request => ⟨time, task, .asks request⟩

/-- What is seen when jobs settle in this order, at these times, after some others. -/
def announced (setup : Setup) (count total : Nat) : Nat → List (Int × Nat) → List Entry
  | _, [] => []
  | before, (time, task) :: rest =>
      asking time task (.countSettled count :: notices setup (before + 1) total) ++
        announced setup count total (before + 1) rest

variable {setup : Setup} {count total : Nat}

theorem told_append (log more : List Entry) : told (log ++ more) = told log ++ told more :=
  List.filter_append ..

theorem announced_append (before : Nat) (order more : List (Int × Nat)) :
    announced setup count total before (order ++ more) =
      announced setup count total before order ++
        announced setup count total (before + order.length) more := by
  induction order generalizing before with
  | nil => rfl
  | cons place order ih =>
      rw [List.cons_append, announced, announced, ih, List.append_assoc, List.length_cons,
        Nat.add_right_comm, Nat.add_assoc]

end Logs

section Scenes

variable {σ α : Type} {gauge : Gauge σ} {setup : Setup} {count total before : Nat}

/-- What the program that runs has to announce now. The others have not started yet. -/
inductive Due (atOnce : Request → Prop) (setup : Setup) (count total : Nat) (now : Int) :
    List Entry → List (Nat × Program α) → Prop where
  | nothing : Due atOnce setup count total now [] []
  | first {task : Nat} {owed : List Request} {program : Program α}
      {others : List (Nat × Program α)} (owes : Owes atOnce setup count total owed program)
      (rest : ∀ entry ∈ others, Owes atOnce setup count total [] entry.2) :
      Due atOnce setup count total now (asking now task owed) ((task, program) :: others)

theorem Due.of_all {atOnce : Request → Prop} {active : List (Nat × Program α)}
    (all : ∀ entry ∈ active, Owes atOnce setup count total [] entry.2) (now : Int) :
    Due atOnce setup count total now [] active := by
  cases active with
  | nil => exact .nothing
  | cons first others =>
      rw [List.forall_mem_cons] at all
      exact .first all.1 all.2

/-- Jobs have settled in this order, and all that there is to tell of it has been told, or will be
told next. -/
structure Announced (gauge : Gauge σ) (setup : Setup) (count total before : Nat)
    (order : List (Int × Nat)) (scene : Scene σ α) : Prop where
  counted : (gauge.counts scene.state)[count]? = some (before + order.length)
  due : ∃ owed, Due gauge.atOnce setup count total scene.now owed scene.active ∧
    told scene.log ++ owed = announced setup count total before order
  waits : ∀ waiter ∈ scene.waiters, ∀ time reply, waiter.request.Sound time reply →
    Owes gauge.atOnce setup count total [] (waiter.next reply)
  again : ∀ waiter ∈ scene.waiters, waiter.finish = none → waiter.request.isBatch = false

theorem counts_of_not_batch {request : Request} {counts after : List Nat} {reply : request.Reply}
    (own : request.isBatch = false) (changes : request.Counts counts after reply) :
    after = counts := by
  cases request with
  | beginCount => cases own
  | countSettled => cases own
  | _ => exact changes

theorem counts_of_news {request : Request} {counts after : List Nat} {reply : request.Reply}
    (news : request.isNews = true) (changes : request.Counts counts after reply) :
    after = counts := by
  cases request with
  | beginCount => cases news
  | countSettled => cases news
  | _ => exact changes

theorem isBatch_of_isNews {request : Request} (news : request.isNews = true) :
    request.isBatch = true := by
  cases request with
  | emit => exact news
  | progress => rfl
  | _ => cases news

variable {scene next : Scene σ α} {order : List (Int × Nat)} {state : σ} {task : Nat}
variable {others : List (Nat × Program α)} {log : List Entry}

namespace Announced

theorem sleep (sofar : Announced gauge setup count total before order scene)
    (kept : gauge.counts state = gauge.counts scene.state)
    (rest : ∀ entry ∈ others, Owes gauge.atOnce setup count total [] entry.2)
    (all : told log = announced setup count total before order) (waiter : Waiter σ α)
    (waits : ∀ time reply, waiter.request.Sound time reply →
      Owes gauge.atOnce setup count total [] (waiter.next reply))
    (again : waiter.finish = none → waiter.request.isBatch = false) :
    Announced gauge setup count total before order
      { scene with
        state
        registered := scene.registered + 1
        active := others
        waiters := scene.waiters ++ [waiter]
        log } where
  counted := kept ▸ sofar.counted
  due := ⟨[], .of_all rest _, (List.append_nil _).trans all⟩
  waits := List.forall_mem_append.mpr ⟨sofar.waits, List.forall_mem_singleton.mpr waits⟩
  again := List.forall_mem_append.mpr ⟨sofar.again, List.forall_mem_singleton.mpr again⟩

theorem wake (sofar : Announced gauge setup count total before order scene)
    (kept : gauge.counts state = gauge.counts scene.state) {program : Program α}
    (goesOn : Owes gauge.atOnce setup count total [] program)
    (all : told log = announced setup count total before order) (now : Int)
    (stays : Waiter σ α → Bool) :
    Announced gauge setup count total before order
      { scene with
        now
        state
        waiters := scene.waiters.filter stays
        active := [(task, program)]
        log } where
  counted := kept ▸ sofar.counted
  due := ⟨[], .of_all (List.forall_mem_singleton.mpr goesOn) _, (List.append_nil _).trans all⟩
  waits other isOther := sofar.waits other (List.mem_filter.mp isOther).1
  again other isOther := sofar.again other (List.mem_filter.mp isOther).1

theorem reply (sofar : Announced gauge setup count total before order scene) {request : Request}
    {goesOn : request.Reply → Program α} {reply : request.Reply} {owed : List Request}
    (owes : Owes gauge.atOnce setup count total owed (.ask request goesOn))
    (all : told scene.log ++ asking scene.now task owed = announced setup count total before order)
    (rest : ∀ entry ∈ others, Owes gauge.atOnce setup count total [] entry.2)
    (counts : request.Counts (gauge.counts scene.state) (gauge.counts state) reply)
    (sound : request.Sound scene.now reply) :
    ∃ order, Announced gauge setup count total before order
      { scene with
        state
        active := (task, goesOn reply) :: others
        log := scene.noted task [.asks request, .hears request reply] } := by
  cases owes with
  | works own goesOn' =>
      refine ⟨order, { sofar with
        counted := (counts_of_not_batch own counts) ▸ sofar.counted
        due := ⟨_, .first (goesOn' _ _ sound) rest, ?_⟩ }⟩
      rw [Scene.noted, told_append]
      simpa [told, asking, own] using all
  | counts goesOn' =>
      obtain ⟨after, number⟩ := counts
      have counted : (gauge.counts state)[count]? = some (before + order.length + 1) := by
        rw [after, List.getElem?_modify_eq, sofar.counted]
        rfl
      rw [counted] at number
      obtain rfl : reply = before + order.length + 1 := number
      refine ⟨order ++ [(scene.now, task)], { sofar with
        counted := ?_, due := ⟨_, .first (goesOn' _) rest, ?_⟩ }⟩
      · rw [counted, List.length_append, List.length_singleton, Nat.add_assoc]
      · rw [Scene.noted, told_append, announced_append, ← all]
        simp [told, asking, announced, Request.isBatch]
        rfl
  | tells news stays goesOn' =>
      refine ⟨order, { sofar with
        counted := (counts_of_news news counts) ▸ sofar.counted
        due := ⟨_, .first (goesOn' _ _ sound) rest, ?_⟩ }⟩
      rw [Scene.noted, told_append, ← all]
      simp [told, asking, isBatch_of_isNews news]

theorem step (prompt : gauge.atOnce (.countSettled count))
    (sofar : Announced gauge setup count total before order scene) (step : scene.Step gauge next) :
    ∃ order, Announced gauge setup count total before order next := by
  obtain ⟨owed, due, all⟩ := sofar.due
  cases step with
  | @ends task result others active =>
      rw [active] at due
      cases due with
      | first owes rest =>
          cases owes with
          | ends =>
              refine ⟨order, { sofar with due := ⟨[], .of_all rest _, ?_⟩ }⟩
              rw [Scene.noted, told_append]
              simpa [told, asking] using all
  | @replied task request goesOn others state reply active calm counts sound =>
      rw [active] at due
      cases due with
      | first owes rest => exact sofar.reply owes all rest counts sound
  | @delayed task request goesOn others state delay finish active slow kept finishes =>
      rw [active] at due
      cases due with
      | first owes rest =>
          cases owes with
          | works own goesOn' =>
              refine ⟨order, sofar.sleep kept.counts rest ?_ _ goesOn' fun missing =>
                absurd missing (Option.some_ne_none _)⟩
              rw [Scene.noted, told_append]
              simpa [told, asking, own] using all
          | counts goesOn' => exact absurd prompt slow
          -- Only the progress callback can wait, and by then there is nothing else to tell.
          | @tells _ owed _ news stays goesOn' =>
              obtain rfl : owed = [] := stays.resolve_left slow
              refine ⟨order, sofar.sleep kept.counts rest ?_ _ goesOn' fun missing =>
                absurd missing (Option.some_ne_none _)⟩
              rw [Scene.noted, told_append, ← all]
              simp [told, asking, isBatch_of_isNews news]
  | @putOff task request goesOn others state delay active slot calm counts late busy =>
      rw [active] at due
      cases due with
      | first owes rest =>
          obtain ⟨scope, target, rfl⟩ := slot
          cases owes with
          | works own goesOn' =>
              refine ⟨order, sofar.sleep counts rest ?_ _ goesOn' fun _ => own⟩
              rw [Scene.noted, told_append]
              simpa [told, asking, own] using all
          | tells news => cases news
  | @woken waiter state reply idle first delayed slow kept sound =>
      rw [idle] at due
      cases due with
      | nothing =>
          have goesOn := sofar.waits waiter (Waiter.earliest_some first).1 _ _ sound
          refine ⟨order, sofar.wake kept.counts goesOn ?_ _ _⟩
          rw [told_append]
          simpa [told] using all
  | @again waiter idle first putOff =>
      rw [idle] at due
      cases due with
      | nothing =>
          have member := (Waiter.earliest_some first).1
          have asks : Owes gauge.atOnce setup count total [] (.ask waiter.request waiter.next) :=
            .works (sofar.again waiter member putOff) (sofar.waits waiter member)
          exact ⟨order, sofar.wake rfl asks ((List.append_nil _).symm.trans all) _ _⟩

end Announced

end Scenes

section Orders

variable {setup : Setup} {count total before : Nat}

/-- When and which jobs settle, in their own order. -/
def settlements (offset : Nat) (courses : List Course) : List (Int × Nat) :=
  (courses.zipIdx offset).map fun (course, job) => (course.settled, job)

theorem mem_settlements {offset : Nat} {courses : List Course} {time : Int} {job : Nat} :
    (time, offset + job) ∈ settlements offset courses ↔
      ∃ isJob : job < courses.length, courses[job].settled = time := by
  simp only [settlements, List.mem_map, Prod.exists, Prod.mk.injEq]
  constructor
  · rintro ⟨course, number, listed, rfl, rfl⟩
    rw [List.mk_add_mem_zipIdx_iff_getElem?] at listed
    obtain ⟨isJob, rfl⟩ := List.getElem?_eq_some_iff.mp listed
    exact ⟨isJob, rfl⟩
  · rintro ⟨isJob, rfl⟩
    refine ⟨courses[job], offset + job, ?_, rfl, rfl⟩
    rw [List.mk_add_mem_zipIdx_iff_getElem?]
    exact List.getElem?_eq_getElem isJob

theorem settlements_nodup (offset : Nat) (courses : List Course) :
    (settlements offset courses).Nodup := by
  refine .of_map (·.2) ?_
  rw [settlements, List.map_map]
  exact (List.zipIdx_map_snd offset courses).symm ▸ List.nodup_range'

theorem settlements_append (offset : Nat) (courses others : List Course) :
    settlements offset (courses ++ others) =
      settlements offset courses ++ settlements (offset + courses.length) others := by
  rw [settlements, List.zipIdx_append, List.map_append]
  rfl

theorem settlements_shift (offset : Nat) (courses : List Course) :
    (settlements 0 courses).map (fun (time, job) => (time, offset + job)) =
      settlements offset courses := by
  rw [settlements, settlements, List.zipIdx_eq_map_add (i := offset), List.map_map, List.map_map]
  rfl

theorem perm_settlements {order : List (Int × Nat)} {courses : List Course}
    (known : ∀ place ∈ order, place.2 < courses.length)
    (each : ∀ (job : Nat) (isJob : job < courses.length),
      order.filter (·.2 == job) = [(courses[job].settled, job)]) :
    order.Perm (settlements 0 courses) := by
  rw [List.perm_ext_iff_of_nodup _ (settlements_nodup 0 courses)]
  · rintro ⟨time, job⟩
    have same := @mem_settlements 0 courses time job
    rw [Nat.zero_add] at same
    rw [same]
    have own : (time, job) ∈ order.filter (·.2 == job) ↔ (time, job) ∈ order := by simp
    constructor
    · intro member
      have isJob := known _ member
      rw [← own, each job isJob, List.mem_singleton] at member
      exact ⟨isJob, (Prod.mk.inj member).1.symm⟩
    · rintro ⟨isJob, rfl⟩
      rw [← own, each job isJob]
      exact List.mem_singleton_self _
  · rw [List.nodup_iff_count_le_one]
    rintro ⟨time, job⟩
    by_cases member : (time, job) ∈ order
    · have own : (order.filter (·.2 == job)).count (time, job) = order.count (time, job) := by
        rw [List.count_filter]
        exact beq_self_eq_true job
      rw [← own, each job (known _ member)]
      exact List.count_le_length
    · rw [List.count_eq_zero.mpr member]
      exact Nat.zero_le 1

theorem announced_shift (offset : Nat) (order : List (Int × Nat)) :
    (announced setup count total before order).map (Entry.shift offset) =
      announced setup count total before (order.map fun (time, job) => (time, offset + job)) := by
  induction order generalizing before with
  | nil => rfl
  | cons place order ih =>
      rw [announced, List.map_append, ih, List.map_cons, announced, asking, List.map_map]
      rfl

theorem told_shift (offset : Nat) (log : List Entry) :
    told (log.map (Entry.shift offset)) = (told log).map (Entry.shift offset) :=
  List.filter_map ..

def settling (count : Nat) (place : Int × Nat) : Entry :=
  ⟨place.1, place.2, .asks (.countSettled count)⟩

theorem settling_injective (count : Nat) : Function.Injective (settling count) := by
  rintro ⟨time, job⟩ ⟨other, another⟩ same
  cases same
  rfl

theorem announced_settles (order : List (Int × Nat)) :
    (announced setup count total before order).filter (·.deed.settles) =
      order.map (settling count) := by
  induction order generalizing before with
  | nil => rfl
  | cons place order ih =>
      have quiet : (asking place.1 place.2 (notices setup (before + 1) total)).filter
          (·.deed.settles) = [] := by
        cases signals : setup.signals <;> cases progress : setup.progress <;>
          simp [notices, asking, signals, progress, announcement, Deed.settles]
      rw [announced, List.filter_append, ih]
      rw [asking, List.map_cons, List.filter_cons_of_pos rfl, ← asking, quiet]
      rfl

theorem told_settles (log : List Entry) :
    (told log).filter (·.deed.settles) = log.filter (·.deed.settles) := by
  rw [told, List.filter_filter]
  refine List.filter_congr fun entry _ => ?_
  rcases entry with ⟨time, task, request | delay | ⟨request, reply⟩ | _⟩
  · cases request <;> simp [Deed.settles, Request.isBatch]
  · rfl
  · rfl
  · rfl

end Orders

theorem eq_of_settles {deed : Deed} (settles : deed.settles = true) :
    ∃ count, deed = .asks (.countSettled count) := by
  rcases deed with request | delay | ⟨request, reply⟩ | _
  · cases request with
    | countSettled count => exact ⟨count, rfl⟩
    | _ => cases settles
  · cases settles
  · cases settles
  · cases settles

theorem Course.Fits.settles_once {course : Course} {atOnce : Request → Prop} {setup : Setup}
    {total : Nat} {job : BatchJob} (fits : course.Fits atOnce setup total job) (count task : Nat) :
    (stamp task course.begun (course.deeds count)).filter (·.deed.settles) =
      [⟨course.settled, task, .asks (.countSettled count)⟩] := by
  have quiet : ∀ {time : Int} {deeds : List Deed}, (∀ deed ∈ deeds, 0 ≤ deed.span) →
      (∀ count, Deed.asks (.countSettled count) ∉ deeds) →
      (stamp task time deeds).filter (·.deed.settles) = [] := by
    intro time deeds forward never
    rw [List.filter_eq_nil_iff]
    intro entry member settles
    obtain ⟨count, same⟩ := eq_of_settles settles
    exact never count (same ▸ (mem_stamp forward member).2.1)
  have works : ∀ count, Deed.asks (.countSettled count) ∉ course.worked := fun count asked =>
    nomatch fits.works _ asked
  have notifies : ∀ other, Deed.asks (.countSettled other) ∉
      .hears (.countSettled count) course.completed :: (course.notice ++ [.ends]) := by
    intro other asked
    have asked : Deed.asks (.countSettled other) ∈ course.notice := by simpa using asked
    rcases (fits.notifies.asks (notify_ends setup course.completed total) asked).2 with
      news | ⟨record, same⟩
    · cases news
    · cases same
  have forward := fits.all_forward count
  rw [deeds, List.forall_mem_append, List.forall_mem_cons] at forward
  rw [deeds, stamp_append, List.filter_append, quiet fits.forward works, List.nil_append, stamp,
    List.filter_cons_of_pos rfl, quiet forward.2.2 notifies]
  rfl

section Notices

variable {setup : Setup} {completed total : Nat} {atOnce : Request → Prop} {time : Int}
variable {deeds : List Deed}

def signalled (setup : Setup) (completed total : Nat) : List Deed :=
  if setup.signals then
    [.asks (announcement completed total),
      .hears (announcement completed total) (Except.ok () : Except Failure Unit)]
  else []

/-- What a job does when the progress callback has returned. -/
def remarks (completed total : Nat) : Except Failure Unit → List Deed
  | .ok _ => []
  | .error fault =>
      [.asks (.log (complaint completed total fault)),
        .hears (.log (complaint completed total fault)) ()]

/-- What a job does to notify. Its progress callback may wait and may fail. -/
inductive Notified (setup : Setup) (completed total : Nat) : List Deed → Prop where
  | unheard (off : setup.progress = false) :
      Notified setup completed total (signalled setup completed total)
  | called {waits : List Deed} {reply : Except Failure Unit} (on : setup.progress = true)
      (asleep : waits = [] ∨ ∃ delay, 0 ≤ delay ∧ waits = [.sleeps delay])
      (ordinary : ∀ fault, reply = .error fault → fault.isOrdinary = true) :
      Notified setup completed total (signalled setup completed total ++
        .asks (.progress completed total) :: (waits ++
          .hears (.progress completed total) reply :: remarks completed total reply))

theorem notify_led (prompt : ∀ {request}, request.IsPrompt → atOnce request)
    (once : ∀ kind payload, atOnce (.emit kind payload))
    (led : Led atOnce time (notify setup completed total).run deeds (.done (.ok ()))) :
    Notified setup completed total deeds := by
  obtain ⟨rest, rfl, calls⟩ : ∃ rest, deeds = signalled setup completed total ++ rest ∧
      Led atOnce time (call setup completed total) rest (.done (.ok ())) := by
    rw [notify_run] at led
    unfold signalled
    cases signals : setup.signals with
    | false =>
        rw [signals] at led
        exact ⟨deeds, rfl, led⟩
    | true =>
        rw [signals] at led
        obtain ⟨reply, rest, sound, rfl, goesOn⟩ := led.of_prompt (once _ _) nofun
        obtain rfl : reply = Except.ok () := sound.1 rfl
        exact ⟨rest, rfl, goesOn⟩
  unfold call at calls
  cases progress : setup.progress with
  | false =>
      rw [progress] at calls
      obtain ⟨rfl, -⟩ := calls.of_done
      rw [List.append_nil]
      exact .unheard progress
  | true =>
      rw [progress] at calls
      obtain ⟨waits, reply, rest, asleep, sound, rfl, concludes⟩ := calls.of_reply nofun
      obtain rfl : rest = remarks completed total reply := by
        cases reply with
        | ok => exact concludes.of_done.1
        | error fault =>
            rw [conclude, if_pos (sound fault rfl)] at concludes
            obtain ⟨_, rest, -, rfl, ends⟩ := concludes.of_prompt (prompt trivial)
              fun _ _ slot => by cases slot
            rw [ends.of_done.1]
            rfl
      exact .called progress asleep sound

theorem closing_led (prompt : ∀ {request}, request.IsPrompt → atOnce request)
    (once : ∀ kind payload, atOnce (.emit kind payload)) {outcomes : List BatchOutcome}
    (led : Led atOnce time (closing setup outcomes).run deeds (.done (.ok ()))) :
    slept deeds = 0 ∧ told (stamp 0 time (deeds ++ [.ends])) = asking time 0
      (if setup.signals then
        [completion outcomes.length (outcomes.countP (·.success))
          (outcomes.length - outcomes.countP (·.success))]
      else []) := by
  rw [closing_run] at led
  obtain ⟨_, rest, -, rfl, goesOn⟩ := led.of_prompt (prompt trivial) nofun
  cases signals : setup.signals with
  | false =>
      rw [signals] at goesOn
      obtain ⟨rfl, -⟩ := goesOn.of_done
      exact ⟨rfl, rfl⟩
  | true =>
      rw [signals] at goesOn
      obtain ⟨_, rest, -, rfl, ends⟩ := goesOn.of_prompt (once _ _) nofun
      obtain ⟨rfl, -⟩ := ends.of_done
      refine ⟨rfl, ?_⟩
      simp [told, stamp, asking, Request.isBatch, completion, Request.isNews]

end Notices

section Runs

variable {σ : Type} {host : Host σ} {gauge : Gauge σ} {moment : Moment σ} {setup : Setup}
variable {count total before : Nat} {operation : BatchJob → Action Value}

theorem ChunkRun.announced {chunk : List BatchJob}
    {final : Scene σ (Except Failure BatchOutcome)} {courses : List Course}
    (keeps : host.KeepsTime gauge) (once : ∀ kind payload, gauge.atOnce (.emit kind payload))
    (works : ∀ job ∈ chunk, ∃ bound, (operation job).Works bound)
    (ran : ChunkRun host gauge setup count total operation chunk moment final courses)
    (counted : (gauge.counts moment.state)[count]? = some before) :
    ∃ order, order.Perm (settlements 0 courses) ∧
      told final.log = announced setup count total before order ∧
      (gauge.counts final.state)[count]? = some (before + order.length) := by
  have bounded := programsOf_bounded setup count total works
  obtain ⟨steps, reaches⟩ := ran.reached
  have started : Announced gauge setup count total before []
      (Scene.start moment (programsOf setup count total operation chunk)) := by
    refine ⟨counted, ⟨[], .of_all ?_ _, rfl⟩, nofun, nofun⟩
    intro entry member
    obtain ⟨⟨program, task⟩, isProgram, rfl⟩ := List.mem_map.mp member
    obtain ⟨job, isJob, rfl⟩ := List.mem_map.mp (List.fst_mem_of_mem_zipIdx isProgram)
    obtain ⟨bound, working⟩ := works job isJob
    exact settle_owes once working
  have both := Scene.run_keeps host (fun scene : Scene σ (Except Failure BatchOutcome) =>
      scene.Coherent gauge (programsOf setup count total operation chunk) moment.now ∧
        ∃ order, Announced gauge setup count total before order scene)
    (by
      rintro scene next ⟨coherent, order, sofar⟩ goesOn
      have step := coherent.steps keeps bounded goesOn
      exact ⟨coherent.keeps step, sofar.step (keeps.prompt trivial) step⟩)
    ⟨Scene.start_coherent ran.calm _, [], started⟩ steps
  rw [reaches] at both
  obtain ⟨-, order, announced⟩ := both
  obtain ⟨owed, due, all⟩ := announced.due
  rw [ran.idle] at due
  cases due with
  | nothing =>
      rw [List.append_nil] at all
      have settled : final.log.filter (·.deed.settles) = order.map (settling count) := by
        rw [← told_settles, all, announced_settles]
      refine ⟨order, perm_settlements ?_ ?_, all, announced.counted⟩
      · intro place member
        have listed := List.mem_map_of_mem (f := settling count) member
        rw [← settled] at listed
        have known := ran.coherent.settled.inside _ (List.mem_filter.mp listed).1
        rwa [programsOf, List.length_map, ← ran.length] at known
      · intro job isJob
        have own := (ran.fits job isJob (ran.length ▸ isJob)).settles_once count job
        rw [ran.begun _ (List.getElem_mem isJob), ← ran.shows job isJob, List.filter_comm,
          settled, List.filter_map] at own
        exact (List.map_injective_iff.mpr (settling_injective count)) own

theorem ChunksRun.announced {offset : Nat} {groups : List (List BatchJob)} {after : Moment σ}
    {log : List Entry} {courses : List Course} (keeps : host.KeepsTime gauge)
    (once : ∀ kind payload, gauge.atOnce (.emit kind payload))
    (works : ∀ chunk ∈ groups, ∀ job ∈ chunk, ∃ bound, (operation job).Works bound)
    (run : ChunksRun host gauge setup count total operation offset groups moment after log courses)
    (counted : (gauge.counts moment.state)[count]? = some before) :
    ∃ order, order.Perm (settlements offset courses) ∧
      told log = announced setup count total before order := by
  induction run generalizing before with
  | done => exact ⟨[], .nil, rfl⟩
  | @next offset chunk groups moment after final courses others log ran rest ih =>
      rw [List.forall_mem_cons] at works
      obtain ⟨order, settles, all, counted⟩ := ran.announced keeps once works.1 counted
      obtain ⟨later, settlesLater, allLater⟩ := ih works.2 counted
      refine ⟨(order.map fun (time, job) => (time, offset + job)) ++ later, ?_, ?_⟩
      · rw [settlements_append, ran.length]
        exact .append ((settles.map _).trans (.of_eq (settlements_shift _ _))) settlesLater
      · rw [told_append, told_shift, all, allLater, announced_append, announced_shift,
          List.length_map]

/-- A batch counts its jobs as they settle, from one to all of them, and tells subscribers and the
progress callback so at that moment. When the last of them has been told of, it is complete, and it
says so once. A progress callback that fails is complained of, and that is all. -/
theorem run_announced (keeps : host.KeepsTime gauge) (quiet : gauge.Quiet moment) (setup : Setup)
    (once : ∀ kind payload, gauge.atOnce (.emit kind payload)) {jobs : List BatchJob}
    (works : ∀ job ∈ jobs, ∃ bound, (operation job).Works bound) {concurrency : Nat}
    (positive : 1 ≤ concurrency) :
    ∃ enough after count transcript courses order succeeded failed,
      (∀ more, enough ≤ more →
        run host more setup jobs concurrency operation moment =
          (after, .ok (courses.map (·.outcome))) ∧
        record host more setup jobs concurrency operation moment = transcript) ∧
      courses.length = jobs.length ∧
      (∀ (job : Nat) (inside : job < courses.length) (isJob : job < jobs.length),
        courses[job].Fits gauge.atOnce setup jobs.length jobs[job] ∧
        Notified setup courses[job].completed jobs.length courses[job].notice ∧
        transcript.jobs.filter (·.task == job) =
          stamp job courses[job].begun (courses[job].deeds count)) ∧
      told transcript.opening = asking moment.now 0 [.beginCount] ∧
      order.Perm (settlements 0 courses) ∧
      told transcript.jobs = announced setup count jobs.length 0 order ∧
      succeeded = (courses.map (·.outcome)).countP (·.success) ∧
      succeeded + failed = jobs.length ∧
      told transcript.closing = asking after.now 0
        (if setup.signals then [completion jobs.length succeeded failed] else []) ∧
      ∀ entry ∈ transcript.jobs, entry.time ≤ after.now := by
  obtain ⟨enough, opened, settled, after, log, courses, deeds, now, counts, ran, led, arrived,
    runs⟩ := run_seen quiet keeps setup works positive
  have length := ran.length (chunks_flatten positive jobs)
  have paced := ran.paced positive rfl
  have counted : (gauge.counts opened.state)[(gauge.counts moment.state).length]? = some 0 := by
    rw [counts]
    exact List.getElem?_concat_length
  obtain ⟨order, settles, all⟩ := ran.announced keeps once (forall_chunks positive works) counted
  obtain ⟨still, closed⟩ := closing_led keeps.prompt once led
  rw [still, Int.add_zero] at arrived
  rw [← arrived, List.length_map, length] at closed
  have most := List.countP_le_length (p := (·.success)) (l := courses.map (·.outcome))
  rw [List.length_map, length] at most
  refine ⟨enough, after, _, _, courses, order, _, _, runs, length, ?_, ?_, settles, all, rfl,
    Nat.add_sub_of_le most, arrived ▸ closed, ?_⟩
  · intro job inside isJob
    have fits := ran.fits (chunks_flatten positive jobs) job inside isJob
    have own := paced.own job inside
    rw [Nat.zero_add] at own
    exact ⟨fits, notify_led keeps.prompt once fits.notifies, own⟩
  · rfl
  · intro entry member
    rw [arrived]
    exact (paced.within entry member).2

end Runs

open Simulation in
/-- Three jobs, two at once, the second of which fails. The progress callback fails whenever it is
called. -/
theorem run_announced_complaining :
    let script : Script :=
      [("first", [{ delay := some 9000 }]),
      ("second", [{ delay := some 4000, outcome := some (.error (.raise .value "bad")) }])]
    let world : World Int := { operations := script, progress := .fails }
    let setup : Setup := { progress := true }
    let jobs : List BatchJob := ["first", "second", "third"].map fun url => { url, selector := "" }
    ∃ enough after count courses order succeeded failed,
      (∀ more, enough ≤ more →
        run World.host more setup jobs 2 (fun job => Action.perform job.url) (.initial world) =
          (after, .ok (courses.map (·.outcome))) ∧
        told (record World.host more setup jobs 2 (fun job => Action.perform job.url)
          (.initial world)).jobs = announced setup count 3 0 order ∧
        told (record World.host more setup jobs 2 (fun job => Action.perform job.url)
          (.initial world)).closing = asking after.now 0 [completion 3 succeeded failed]) ∧
      order.Perm (settlements 0 courses) ∧ succeeded + failed = 3 := by
  intro script world setup jobs
  have quiet : World.gauge.Quiet (.initial world) := by
    refine ⟨⟨⟨nofun, World.attempts_ordinary ?_⟩, ?_⟩, rfl⟩
    · simp [Moment.initial, world, script, Failure.raise, Failure.isOrdinary]
    · intro scope window held
      cases scope with
      | global => cases held
      | domain name => cases held
  have works : ∀ job ∈ jobs, ∃ bound, (Action.perform job.url).Works bound := fun job _ =>
    ⟨1, Action.works_perform job.url⟩
  obtain ⟨enough, after, count, transcript, courses, order, succeeded, failed, runs, -, -, -,
    settles, told, -, all, closed, -⟩ :=
    run_announced World.keepsTime quiet setup (fun _ _ => trivial) works (by decide : 1 ≤ 2)
  refine ⟨enough, after, count, courses, order, succeeded, failed, fun more most => ?_, settles,
    all⟩
  obtain ⟨ran, seen⟩ := runs more most
  rw [seen]
  exact ⟨ran, told, closed⟩

end WebHarvest.Batch
