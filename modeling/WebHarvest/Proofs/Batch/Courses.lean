import WebHarvest.Proofs.Batch.Run
import WebHarvest.Proofs.Batch.Transcript

/-!
# The courses of a batch

The chunks of a batch run one after the other. Every job takes a course, and the batch comes to the
outcomes of these courses.
-/

set_option autoImplicit false

namespace WebHarvest.Batch

open Program (Led)

variable {σ : Type}

theorem forall_chunks {α : Type} {size : Nat} (positive : 1 ≤ size) {items : List α}
    {property : α → Prop} (all : ∀ item ∈ items, property item) :
    ∀ chunk ∈ chunks size items, ∀ item ∈ chunk, property item := by
  intro chunk isChunk item isItem
  refine all item ?_
  rw [← chunks_flatten positive items]
  exact List.mem_flatten_of_mem isChunk isItem

theorem find?_of_member {α : Type} {finished : List (Nat × α)} (once : (finished.map (·.1)).Nodup)
    {task : Nat} {result : α} (member : (task, result) ∈ finished) :
    finished.find? (·.1 == task) = some (task, result) := by
  have present : (finished.find? (·.1 == task)).isSome = true :=
    List.find?_isSome.mpr ⟨(task, result), member, beq_self_eq_true task⟩
  obtain ⟨entry, found⟩ := Option.isSome_iff_exists.mp present
  have same : entry.1 = task := by simpa using List.find?_some found
  rw [found, List.inj_on_of_nodup_map once (List.mem_of_find?_eq_some found) member same]

theorem gather_of_ok {finished : List (Nat × Except Failure BatchOutcome)}
    {outcomes : List BatchOutcome} {count : Nat} (length : outcomes.length = count)
    (tasks : (finished.map (·.1)).Perm (List.range count))
    (each : ∀ (task : Nat) (inside : task < outcomes.length),
      (task, .ok outcomes[task]) ∈ finished) :
    gather count finished = .ok outcomes := by
  subst length
  have once : (finished.map (·.1)).Nodup := tasks.nodup_iff.mpr List.nodup_range
  have found : ∀ (task : Nat) (inside : task < outcomes.length),
      finished.find? (·.1 == task) = some (task, .ok outcomes[task]) := fun task inside =>
    find?_of_member once (each task inside)
  unfold gather
  split
  next failure stopped =>
    obtain ⟨⟨task, ended⟩, member, fails⟩ := List.exists_of_findSome?_eq_some stopped
    have inside : task < outcomes.length :=
      List.mem_range.mp (tasks.mem_iff.mp (List.mem_map_of_mem member))
    have same := (find?_of_member once member).symm.trans (found task inside)
    cases ended with
    | error other => simp at same
    | ok outcome => cases fails
  next =>
    refine congrArg Except.ok ((List.map_id _).symm.trans (map_filterMap_range ?_))
    intro task inside
    rw [found task inside]
    rfl

section Chunk

variable {host : Host σ} {gauge : Gauge σ} {moment : Moment σ} {setup : Setup} {count total : Nat}
variable {operation : BatchJob → Action Value} {chunk : List BatchJob}

def programsOf (setup : Setup) (count total : Nat) (operation : BatchJob → Action Value)
    (chunk : List BatchJob) : List (Program (Except Failure BatchOutcome)) :=
  chunk.map fun job => (settle setup count total operation job).run

theorem programsOf_bounded (setup : Setup) (count total : Nat) {chunk : List BatchJob}
    (works : ∀ job ∈ chunk, ∃ bound, (operation job).Works bound) :
    Scene.Bounded (fun ended : Except Failure BatchOutcome => ∃ outcome, ended = .ok outcome)
      (programsOf setup count total operation chunk) := by
  intro program isProgram
  obtain ⟨job, isJob, rfl⟩ := List.mem_map.mp isProgram
  obtain ⟨bound, working⟩ := works job isJob
  exact settle_ends setup count total working

theorem programsOf_goes (ended : Except Failure BatchOutcome)
    (good : ∃ outcome, ended = .ok outcome) : stops ended = false := by
  obtain ⟨outcome, rfl⟩ := good
  rfl

theorem exists_course (keeps : host.KeepsTime gauge) {job : BatchJob} {bound : Nat}
    (works : (operation job).Works bound) {begin : Int} {deeds : List Deed}
    {ended : Except Failure BatchOutcome}
    (led : Led gauge.atOnce begin (settle setup count total operation job).run deeds
      (.done ended)) :
    ∃ course : Course, course.begun = begin ∧ course.Fits gauge.atOnce setup total job ∧
      ended = .ok course.outcome ∧ deeds ++ [.ends] = course.deeds count := by
  obtain ⟨result, rest, worked, completed, notice, rfl, looks, works, rfl, forward, notifies⟩ :=
    settle_led keeps.prompt works led
  refine ⟨⟨begin, worked, completed, notice, timed job result (slept worked)⟩, rfl, ?_, rfl, ?_⟩
  · refine ⟨⟨rest, looks⟩, works, ⟨result, ?_⟩, notifies, forward⟩
    simp only [Course.settled, add_sub_cancel_left]
  · simp only [Course.deeds, List.append_assoc, List.cons_append]

/-- A chunk whose jobs have all run; the scene is the one that they leave. -/
structure ChunkRun (host : Host σ) (gauge : Gauge σ) (setup : Setup) (count total : Nat)
    (operation : BatchJob → Action Value) (chunk : List BatchJob) (moment : Moment σ)
    (final : Scene σ (Except Failure BatchOutcome)) (courses : List Course) : Prop where
  reached : ∃ steps,
    (Scene.start moment (programsOf setup count total operation chunk)).run host steps = final
  coherent : final.Coherent gauge (programsOf setup count total operation chunk) moment.now
  idle : final.active = []
  nobody : final.waiters = []
  calm : gauge.Calm moment.state
  length : courses.length = chunk.length
  begun : ∀ course ∈ courses, course.begun = moment.now
  fits : ∀ (task : Nat) (inside : task < courses.length) (isJob : task < chunk.length),
    courses[task].Fits gauge.atOnce setup total chunk[task]
  shows : ∀ (task : Nat) (inside : task < courses.length),
    final.Shows moment.now task (courses[task].deeds count)

theorem runChunk_seen (quiet : gauge.Quiet moment) (keeps : host.KeepsTime gauge) (setup : Setup)
    (count total : Nat) (works : ∀ job ∈ chunk, ∃ bound, (operation job).Works bound) :
    ∃ enough final courses,
      ChunkRun host gauge setup count total operation chunk moment final courses ∧
      gauge.Quiet final.schedule.rest ∧
      gather chunk.length final.finished = .ok (courses.map (·.outcome)) ∧
      ∀ more, enough ≤ more →
        moment.runAll host more stops (programsOf setup count total operation chunk) =
          (final.schedule.rest, final.finished) ∧
        moment.record host more (programsOf setup count total operation chunk) = final.log := by
  have length : (programsOf setup count total operation chunk).length = chunk.length :=
    List.length_map _
  obtain ⟨enough, steps, final, reaches, coherent, idle, nobody, quietAfter, runs⟩ :=
    Moment.runAll_ends quiet keeps (programsOf_bounded setup count total works) programsOf_goes
  have each : ∀ task : Fin chunk.length, ∃ course : Course, course.begun = moment.now ∧
      course.Fits gauge.atOnce setup total chunk[task] ∧
      (task.val, .ok course.outcome) ∈ final.finished ∧
      final.Shows moment.now task (course.deeds count) := by
    rintro ⟨task, inside⟩
    obtain ⟨ended, deeds, member, shows, led⟩ :=
      coherent.all_ended idle nobody (inside.trans_eq length.symm)
    simp only [programsOf, List.getElem_map] at led
    obtain ⟨bound, working⟩ := works chunk[task] (List.getElem_mem inside)
    obtain ⟨course, begun, fits, rfl, same⟩ := exists_course keeps working led
    exact ⟨course, begun, fits, member, same ▸ shows⟩
  choose course begun fits member shows using each
  refine ⟨enough, final, List.ofFn course, ?_, quietAfter, ?_, runs⟩
  · refine ⟨⟨steps, reaches⟩, coherent, idle, nobody, quiet.calm, List.length_ofFn, ?_, ?_, ?_⟩
    · exact List.forall_mem_ofFn_iff.mpr begun
    · intro task _ isJob
      simpa using fits ⟨task, isJob⟩
    · intro task inside
      rw [List.length_ofFn] at inside
      simpa using shows ⟨task, inside⟩
  · have tasks := coherent.settled.tasks
    rw [idle, nobody, length] at tasks
    refine gather_of_ok (by rw [List.length_map, List.length_ofFn]) tasks fun task inside => ?_
    rw [List.length_map, List.length_ofFn] at inside
    simpa using member ⟨task, inside⟩

/-- Chunks that have run one after the other. The jobs are numbered from an offset on. -/
inductive ChunksRun (host : Host σ) (gauge : Gauge σ) (setup : Setup) (count total : Nat)
    (operation : BatchJob → Action Value) :
    Nat → List (List BatchJob) → Moment σ → Moment σ → List Entry → List Course → Prop where
  | done {offset : Nat} {moment : Moment σ} :
      ChunksRun host gauge setup count total operation offset [] moment moment [] []
  | next {offset : Nat} {chunk : List BatchJob} {groups : List (List BatchJob)}
      {moment after : Moment σ} {final : Scene σ (Except Failure BatchOutcome)}
      {courses others : List Course} {log : List Entry}
      (ran : ChunkRun host gauge setup count total operation chunk moment final courses)
      (rest : ChunksRun host gauge setup count total operation (offset + chunk.length) groups
        final.schedule.rest after log others) :
      ChunksRun host gauge setup count total operation offset (chunk :: groups) moment after
        (final.log.map (Entry.shift offset) ++ log) (courses ++ others)

theorem runChunks_seen (quiet : gauge.Quiet moment) (keeps : host.KeepsTime gauge) (setup : Setup)
    (count total : Nat) {groups : List (List BatchJob)}
    (works : ∀ chunk ∈ groups, ∀ job ∈ chunk, ∃ bound, (operation job).Works bound)
    (offset : Nat) :
    ∃ enough after log courses,
      ChunksRun host gauge setup count total operation offset groups moment after log courses ∧
      gauge.Quiet after ∧
      ∀ more, enough ≤ more →
        runChunks host more setup count total operation groups moment =
          (after, .ok (courses.map (·.outcome))) ∧
        recordChunks host more setup count total operation offset groups moment = log := by
  induction groups generalizing moment offset with
  | nil => exact ⟨0, moment, [], [], .done, quiet, fun _ _ => ⟨rfl, rfl⟩⟩
  | cons chunk groups ih =>
      rw [List.forall_mem_cons] at works
      obtain ⟨enough, final, courses, ran, quietAfter, gathered, runs⟩ :=
        runChunk_seen quiet keeps setup count total works.1
      obtain ⟨enoughLater, after, log, others, rest, quietLast, runsLater⟩ :=
        ih quietAfter works.2 (offset + chunk.length)
      refine ⟨max enough enoughLater, after, _, _, .next ran rest, quietLast, fun more most => ?_⟩
      obtain ⟨first, seen⟩ := runs more (by omega)
      obtain ⟨second, seenLater⟩ := runsLater more (by omega)
      rw [programsOf] at first seen
      constructor
      · simp only [runChunks, first, gathered, second, Except.map, List.map_append]
      · simp only [recordChunks, first, seen, seenLater]

namespace ChunksRun

variable {offset : Nat} {groups : List (List BatchJob)} {after : Moment σ}
variable {log : List Entry} {courses : List Course}

theorem length (run : ChunksRun host gauge setup count total operation offset groups moment after
    log courses) {jobs : List BatchJob} (flat : groups.flatten = jobs) :
    courses.length = jobs.length := by
  subst flat
  induction run with
  | done => rfl
  | next ran rest ih =>
      rw [List.length_append, List.flatten_cons, List.length_append, ran.length, ih]

theorem fits (run : ChunksRun host gauge setup count total operation offset groups moment after
    log courses) {jobs : List BatchJob} (flat : groups.flatten = jobs) (job : Nat)
    (inside : job < courses.length) (isJob : job < jobs.length) :
    courses[job].Fits gauge.atOnce setup total jobs[job] := by
  subst flat
  induction run generalizing job with
  | done => exact absurd inside (Nat.not_lt_zero _)
  | @next offset chunk groups moment after final courses others log ran rest ih =>
      have same := ran.length
      simp only [List.flatten_cons]
      rcases Nat.lt_or_ge job courses.length with isFirst | isLater
      · rw [List.getElem_append_left isFirst, List.getElem_append_left (by omega)]
        exact ran.fits job isFirst (by omega)
      · rw [List.getElem_append_right isLater, List.getElem_append_right (by omega)]
        simp only [same]
        exact ih _ _ _

end ChunksRun

end Chunk

section Run

variable {host : Host σ} {gauge : Gauge σ} {moment : Moment σ} {setup : Setup}
variable {operation : BatchJob → Action Value} {jobs : List BatchJob}

/-- What a batch logs at its start and at its end. -/
def greeting (total concurrency : Nat) : LogRecord :=
  .info logger ("Starting batch of " ++ toString total ++ " jobs (concurrency " ++
    toString concurrency ++ ")")

def summary (total succeeded : Nat) : LogRecord :=
  .info logger ("Batch complete: " ++ toString succeeded ++ " succeeded, " ++
    toString (total - succeeded) ++ " failed")

def completion (total succeeded failed : Nat) : Request :=
  .emit .batchComplete
    [(.text "total", .ofNat total), (.text "succeeded", .ofNat succeeded),
      (.text "failed", .ofNat failed)]

def overture (count total concurrency : Nat) : List Deed :=
  [.asks .beginCount, .hears .beginCount count, .asks (.log (greeting total concurrency)),
    .hears (.log (greeting total concurrency)) (), .ends]

/-- A batch begins a count of its own; no time passes until its first job. -/
theorem opening_seen (quiet : gauge.Quiet moment) (keeps : host.KeepsTime gauge)
    (total concurrency : Nat) :
    ∃ enough opened, gauge.Quiet opened ∧ opened.now = moment.now ∧
      gauge.counts opened.state = gauge.counts moment.state ++ [0] ∧
      ∀ more, enough ≤ more →
        moment.perform host more (opening total concurrency) =
          (opened, .ok (gauge.counts moment.state).length) ∧
        moment.record host more [(opening total concurrency).run] =
          stamp 0 moment.now (overture (gauge.counts moment.state).length total concurrency) := by
  let program := (opening total concurrency).run
  have first : (Scene.start moment [program]).active =
      (0, .ask .beginCount fun count => .ask (.log (greeting total concurrency)) fun _ =>
        .done (.ok count)) :: [] := rfl
  obtain ⟨begun, count, calm, ⟨number, fresh⟩, begins⟩ :=
    Scene.step_of_atOnce keeps quiet.calm first ⟨"", trivial⟩ (keeps.prompt trivial) nofun
  let counted : Scene σ (Except Failure Nat) :=
    { Scene.start moment [program] with
      state := begun
      active := [(0, .ask (.log (greeting total concurrency)) fun _ => .done (.ok count))]
      log := (Scene.start moment [program]).noted 0 [.asks .beginCount, .hears .beginCount count] }
  have second : (Scene.start moment [program]).step host = some counted := begins
  obtain ⟨state, _, calmLater, kept, logs⟩ :=
    @Scene.step_of_atOnce _ _ gauge host keeps counted calm 0 _ _ [] rfl ⟨"", trivial⟩
      (keeps.prompt trivial) nofun
  let final : Scene σ (Except Failure Nat) :=
    { Scene.start moment [program] with
      state
      active := []
      finished := [(0, .ok count)]
      log := stamp 0 moment.now (overture count total concurrency) }
  have runs : (Scene.start moment [program]).run host 3 = final := by
    have still : stamp 0 moment.now (overture count total concurrency) = _ :=
      stamp_of_still (by simp [overture, Deed.span])
    rw [Scene.run_of_step second, Scene.run_of_step logs]
    simp only [final, still]
    rfl
  have halted : ((Scene.start moment [program]).run host 3).step host = none := by
    rw [runs]
    rfl
  obtain ⟨enough, seen⟩ := @Moment.runAll_of_halted _ _ host moment quiet.alone [program]
    (fun _ => false) 3 halted fun _ _ => rfl
  rw [runs] at seen
  refine ⟨enough, final.schedule.rest, ⟨calmLater, rfl⟩, rfl, kept.trans fresh, ?_⟩
  intro more most
  obtain ⟨ran, log⟩ := seen more most
  obtain rfl : count = (gauge.counts moment.state).length := number
  refine ⟨?_, log⟩
  rw [Moment.perform, Moment.run, ran]
  rfl

theorem closing_run (setup : Setup) (outcomes : List BatchOutcome) :
    (closing setup outcomes).run =
      .ask (.log (summary outcomes.length (outcomes.countP (·.success)))) fun _ =>
        if setup.signals then
          .ask (completion outcomes.length (outcomes.countP (·.success))
            (outcomes.length - outcomes.countP (·.success))) Program.done
        else .done (.ok ()) := by
  unfold closing
  cases setup.signals with
  | false => rfl
  | true => rfl

theorem completion_served (total succeeded failed : Nat) :
    (completion total succeeded failed).IsServed :=
  ⟨"", [("total", .ofNat total), ("succeeded", .ofNat succeeded), ("failed", .ofNat failed)], rfl⟩

theorem closing_ends (setup : Setup) (outcomes : List BatchOutcome) :
    (closing setup outcomes).run.Within IsNotice (fun ended => ended = .ok ()) 2 := by
  rw [closing_run]
  refine .ask ⟨⟨"", trivial⟩, Or.inr ⟨_, rfl⟩⟩ fun _ _ _ => ?_
  cases setup.signals with
  | false => exact .done rfl
  | true => exact .ask ⟨completion_served _ _ _, Or.inl rfl⟩ fun _ _ sound => .done (sound.1 rfl)

/-- A batch runs its chunks and then says what they came to. -/
theorem run_seen (quiet : gauge.Quiet moment) (keeps : host.KeepsTime gauge) (setup : Setup)
    (works : ∀ job ∈ jobs, ∃ bound, (operation job).Works bound) {concurrency : Nat}
    (positive : 1 ≤ concurrency) :
    ∃ enough opened settled after log courses deeds,
      opened.now = moment.now ∧
      gauge.counts opened.state = gauge.counts moment.state ++ [0] ∧
      ChunksRun host gauge setup (gauge.counts moment.state).length jobs.length operation 0
        (chunks concurrency jobs) opened settled log courses ∧
      Led gauge.atOnce settled.now (closing setup (courses.map (·.outcome))).run deeds
        (.done (.ok ())) ∧
      after.now = settled.now + slept deeds ∧
      ∀ more, enough ≤ more →
        run host more setup jobs concurrency operation moment =
          (after, .ok (courses.map (·.outcome))) ∧
        record host more setup jobs concurrency operation moment =
          { opening := stamp 0 moment.now
              (overture (gauge.counts moment.state).length jobs.length concurrency)
            jobs := log
            closing := stamp 0 settled.now (deeds ++ [.ends]) } := by
  obtain ⟨enough, opened, quietOpened, now, counts, opens⟩ :=
    opening_seen quiet keeps jobs.length concurrency
  obtain ⟨enoughJobs, settled, log, courses, ran, quietSettled, runs⟩ :=
    runChunks_seen quietOpened keeps setup (gauge.counts moment.state).length jobs.length
      (forall_chunks positive works) 0
  obtain ⟨enoughClosing, after, ended, deeds, rfl, -, led, arrived, closes⟩ :=
    Moment.perform_ends quietSettled keeps <|
      (closing_ends setup (courses.map (·.outcome))).weaken (fun _ own => own.1) fun _ same => same
  refine ⟨max enough (max enoughJobs enoughClosing), opened, settled, after, log, courses, deeds,
    now, counts, ran, led, arrived, fun more most => ?_⟩
  obtain ⟨opened, begins⟩ := opens more (by omega)
  obtain ⟨ran, works⟩ := runs more (by omega)
  obtain ⟨closed, finishes⟩ := closes more (by omega)
  constructor
  · simp only [run, opened, ran, closed, Except.map]
  · simp only [record, opened, begins, ran, works, finishes]

end Run

end WebHarvest.Batch
