import Mathlib.Order.Bounds.Basic
import WebHarvest.Proofs.Batch.Courses
import WebHarvest.Proofs.Simulation.Pace

/-!
# The pace of a batch

The chunks of a batch run one after the other, without a gap: a chunk begins at the moment at which
the last job of the one before has ended, and no earlier. So there are never more jobs under way
than the concurrency allows, and the batch takes as long as the longest jobs of its chunks together.
-/

set_option autoImplicit false

namespace WebHarvest.Batch

theorem chunksWithin_of_le {α : Type} {size : Nat} (positive : 1 ≤ size) {bound more : Nat}
    {items : List α} (enough : items.length ≤ bound) (larger : bound ≤ more) :
    chunksWithin size more items = chunksWithin size bound items := by
  induction bound generalizing more items with
  | zero =>
      obtain rfl := List.length_eq_zero_iff.mp (Nat.le_zero.mp enough)
      cases more with
      | zero => rfl
      | succ more => rfl
  | succ bound ih =>
      obtain ⟨more, rfl⟩ := Nat.exists_eq_add_of_le' (Nat.one_le_of_lt larger)
      cases items with
      | nil => rfl
      | cons item rest =>
          have fewer : ((item :: rest).drop size).length ≤ bound := by
            rw [List.length_drop]
            omega
          rw [chunksWithin, chunksWithin, ih fewer (Nat.le_of_succ_le_succ larger)]
          · exact List.cons_ne_nil _ _
          · exact List.cons_ne_nil _ _

theorem chunks_of_ne_nil {α : Type} {size : Nat} (positive : 1 ≤ size) {items : List α}
    (some : items ≠ []) : chunks size items = items.take size :: chunks size (items.drop size) := by
  cases items with
  | nil => exact absurd rfl some
  | cons item rest =>
      rw [chunks, List.length_cons, chunksWithin]
      · refine congrArg _ (chunksWithin_of_le positive (Nat.le_refl _) ?_)
        rw [List.length_drop, List.length_cons]
        omega
      · exact List.cons_ne_nil _ _

theorem chunks_append {α : Type} {size : Nat} (positive : 1 ≤ size) {first rest : List α}
    (some : first ≠ []) (most : first.length ≤ size) (full : rest ≠ [] → first.length = size) :
    chunks size (first ++ rest) = first :: chunks size rest := by
  rw [chunks_of_ne_nil positive (List.append_ne_nil_of_left_ne_nil some rest)]
  cases rest with
  | nil => rw [List.append_nil, List.take_of_length_le most, List.drop_eq_nil_of_le most]
  | cons item others =>
      rw [← full (List.cons_ne_nil _ _), List.take_left, List.drop_left]

theorem chunks_of_length_le {α : Type} {size : Nat} (positive : 1 ≤ size) {items : List α}
    (some : items ≠ []) (most : items.length ≤ size) : chunks size items = [items] := by
  rw [chunks_of_ne_nil positive some, List.take_of_length_le most, List.drop_eq_nil_of_le most]
  rfl

/-- The time of the longest of some jobs, its notification included. -/
def longest (courses : List Course) : Int :=
  (courses.map fun course => course.ended - course.begun).foldr max 0

theorem foldr_max_eq {times : List Int} {most : Int} (member : most ∈ times)
    (least : ∀ time ∈ times, time ≤ most) (nonneg : 0 ≤ most) : times.foldr max 0 = most := by
  apply le_antisymm
  · clear member
    induction times with
    | nil => exact nonneg
    | cons time rest ih =>
        rw [List.forall_mem_cons] at least
        exact max_le least.1 (ih least.2)
  · clear least
    induction times with
    | nil => cases member
    | cons time rest ih =>
        rcases List.mem_cons.mp member with rfl | later
        · exact le_max_left _ _
        · exact (ih later).trans (le_max_right _ _)

/-- The log of jobs that run in chunks from a time on, at most `concurrency` at once, until a time.
The jobs are numbered from an offset on. -/
structure Paced (concurrency count offset : Nat) (courses : List Course) (log : List Entry)
    (begin finish : Int) : Prop where
  inside : ∀ entry ∈ log, offset ≤ entry.task ∧ entry.task < offset + courses.length
  /-- What is seen of a job is its course. -/
  own : ∀ (job : Nat) (isJob : job < courses.length),
    log.filter (·.task == offset + job) =
      stamp (offset + job) courses[job].begun (courses[job].deeds count)
  ordered : log.Pairwise (·.time ≤ ·.time)
  within : ∀ entry ∈ log, begin ≤ entry.time ∧ entry.time ≤ finish
  /-- When a job does something, the jobs of earlier chunks have done all that they do. -/
  barrier : ∀ before entry rest, log = before ++ entry :: rest →
    ∀ (job : Nat) (isJob : job < courses.length) (later : Nat), entry.task = offset + later →
      job / concurrency < later / concurrency →
      before.filter (·.task == offset + job) =
        stamp (offset + job) courses[job].begun (courses[job].deeds count)
  first : ∀ (job : Nat) (isJob : job < courses.length), job < concurrency →
    courses[job].begun = begin
  /-- A job begins when the last job of the chunk before ends. -/
  handover : ∀ (job : Nat) (isJob : job < courses.length), concurrency ≤ job →
    IsGreatest { time | ∃ earlier, ∃ isEarlier : earlier < courses.length,
      earlier / concurrency + 1 = job / concurrency ∧ courses[earlier].ended = time }
      courses[job].begun
  total : finish = begin + ((chunks concurrency courses).map longest).sum

namespace Paced

variable {concurrency count offset : Nat} {courses rest : List Course} {log others : List Entry}
variable {begin middle finish : Int}

theorem nil (concurrency count offset : Nat) (time : Int) :
    Paced concurrency count offset [] [] time time where
  inside _ member := by cases member
  own _ isJob := absurd isJob (Nat.not_lt_zero _)
  ordered := .nil
  within _ member := by cases member
  barrier before entry rest split := by simp at split
  first _ isJob := absurd isJob (Nat.not_lt_zero _)
  handover _ isJob := absurd isJob (Nat.not_lt_zero _)
  total := by simp [chunks, chunksWithin]

theorem last_ended
    (inside : ∀ entry ∈ log, offset ≤ entry.task ∧ entry.task < offset + courses.length)
    (own : ∀ (job : Nat) (isJob : job < courses.length),
      log.filter (·.task == offset + job) =
        stamp (offset + job) courses[job].begun (courses[job].deeds count))
    (forward : ∀ course ∈ courses, ∀ deed ∈ course.deeds count, 0 ≤ deed.span)
    (past : ∀ entry ∈ log, entry.time ≤ finish) (current : ∃ entry ∈ log, entry.time = finish) :
    IsGreatest { time | ∃ course ∈ courses, course.ended = time } finish := by
  have most : ∀ (job : Nat) (isJob : job < courses.length), courses[job].ended ≤ finish := by
    intro job isJob
    have member := courses[job].ended_mem count (offset + job)
    rw [← own job isJob] at member
    exact past _ (List.mem_filter.mp member).1
  constructor
  · obtain ⟨entry, member, time⟩ := current
    obtain ⟨low, high⟩ := inside entry member
    obtain ⟨job, same⟩ := Nat.exists_eq_add_of_le low
    have isJob : job < courses.length := by omega
    have listed : entry ∈ log.filter (·.task == offset + job) :=
      List.mem_filter.mpr ⟨member, beq_iff_eq.mpr same⟩
    rw [own job isJob] at listed
    obtain ⟨-, -, -, before⟩ := mem_stamp (forward _ (List.getElem_mem isJob)) listed
    rw [Course.slept_deeds, time] at before
    exact ⟨_, List.getElem_mem isJob, le_antisymm (most job isJob) before⟩
  · rintro _ ⟨course, isCourse, rfl⟩
    obtain ⟨job, isJob, rfl⟩ := List.getElem_of_mem isCourse
    exact most job isJob

theorem single (positive : 1 ≤ concurrency) (some : courses ≠ [])
    (most : courses.length ≤ concurrency)
    (inside : ∀ entry ∈ log, offset ≤ entry.task ∧ entry.task < offset + courses.length)
    (own : ∀ (job : Nat) (isJob : job < courses.length),
      log.filter (·.task == offset + job) =
        stamp (offset + job) courses[job].begun (courses[job].deeds count))
    (begun : ∀ course ∈ courses, course.begun = begin)
    (forward : ∀ course ∈ courses, ∀ deed ∈ course.deeds count, 0 ≤ deed.span)
    (ordered : log.Pairwise (·.time ≤ ·.time)) (past : ∀ entry ∈ log, entry.time ≤ finish)
    (last : IsGreatest { time | ∃ course ∈ courses, course.ended = time } finish) :
    Paced concurrency count offset courses log begin finish where
  inside := inside
  own := own
  ordered := ordered
  within := by
    intro entry member
    obtain ⟨low, high⟩ := inside entry member
    obtain ⟨job, same⟩ := Nat.exists_eq_add_of_le low
    have isJob : job < courses.length := by omega
    have listed : entry ∈ log.filter (·.task == offset + job) :=
      List.mem_filter.mpr ⟨member, beq_iff_eq.mpr same⟩
    rw [own job isJob] at listed
    obtain ⟨-, -, after, -⟩ := mem_stamp (forward _ (List.getElem_mem isJob)) listed
    rw [begun _ (List.getElem_mem isJob)] at after
    exact ⟨after, past entry member⟩
  barrier := by
    intro before entry rest split job isJob later same sooner
    have member : entry ∈ log := by simp [split]
    have isLater := (inside entry member).2
    rw [Nat.div_eq_of_lt (by omega : later < concurrency)] at sooner
    exact absurd sooner (Nat.not_lt_zero _)
  first job isJob _ := begun _ (List.getElem_mem isJob)
  handover job isJob beyond := absurd isJob (by omega)
  total := by
    obtain ⟨⟨course, isCourse, ended⟩, upper⟩ := last
    have spans : longest courses = finish - begin := by
      refine foldr_max_eq ?_ ?_ ?_
      · exact List.mem_map.mpr ⟨course, isCourse, by rw [ended, begun _ isCourse]⟩
      · intro time isTime
        obtain ⟨other, isOther, rfl⟩ := List.mem_map.mp isTime
        rw [begun _ isOther]
        have ends := upper ⟨other, isOther, rfl⟩
        omega
      · have time := course.slept_deeds count
        have late := slept_nonneg (forward _ isCourse)
        rw [begun _ isCourse, ended] at time
        omega
    rw [chunks_of_length_le positive some most, List.map_singleton, List.sum_singleton, spans]
    omega

theorem longest_nonneg (courses : List Course) : 0 ≤ longest courses := by
  rw [longest]
  induction courses.map fun course => course.ended - course.begun with
  | nil => exact le_rfl
  | cons time rest ih => exact ih.trans (le_max_right _ _)

theorem begin_le (paced : Paced concurrency count offset courses log begin finish) :
    begin ≤ finish := by
  rw [paced.total]
  refine le_add_of_nonneg_right (List.sum_nonneg fun time isTime => ?_)
  obtain ⟨group, -, rfl⟩ := List.mem_map.mp isTime
  exact longest_nonneg group

theorem filter_eq_nil {log : List Entry} {task : Nat} (others : ∀ entry ∈ log, entry.task ≠ task) :
    log.filter (·.task == task) = [] :=
  List.filter_eq_nil_iff.mpr fun entry member => by simpa using others entry member

section Append

theorem length_of_later (full : rest ≠ [] → courses.length = concurrency) {job : Nat}
    (beyond : courses.length ≤ job) (isJob : job < (courses ++ rest).length) :
    courses.length = concurrency := by
  refine full ?_
  rintro rfl
  rw [List.append_nil] at isJob
  omega

theorem getElem_later {job : Nat} (isJob : courses.length + job < (courses ++ rest).length) :
    ∃ inside : job < rest.length, (courses ++ rest)[courses.length + job] = rest[job] := by
  rw [List.length_append] at isJob
  refine ⟨by omega, ?_⟩
  simp only [List.getElem_append_right (Nat.le_add_right _ _), Nat.add_sub_cancel_left]

variable (positive : 1 ≤ concurrency)
variable (chunk : Paced concurrency count offset courses log begin middle)
variable (later : Paced concurrency count (offset + courses.length) rest others middle finish)

include chunk later

theorem own_append (job : Nat) (isJob : job < (courses ++ rest).length) :
    (log ++ others).filter (·.task == offset + job) =
      stamp (offset + job) (courses ++ rest)[job].begun ((courses ++ rest)[job].deeds count) := by
  rw [List.filter_append]
  rcases Nat.lt_or_ge job courses.length with isFirst | isLater
  · rw [List.getElem_append_left isFirst, chunk.own job isFirst, filter_eq_nil, List.append_nil]
    intro entry member
    have := later.inside entry member
    omega
  · obtain ⟨job, rfl⟩ := Nat.exists_eq_add_of_le isLater
    obtain ⟨inside, same⟩ := getElem_later isJob
    rw [same, filter_eq_nil, List.nil_append, ← Nat.add_assoc, later.own job inside]
    intro entry member
    have := chunk.inside entry member
    omega

include positive

theorem barrier_append (most : courses.length ≤ concurrency)
    (full : rest ≠ [] → courses.length = concurrency) {before tail : List Entry} {entry : Entry}
    (split : log ++ others = before ++ entry :: tail) {job number : Nat}
    (isJob : job < (courses ++ rest).length) (same : entry.task = offset + number)
    (sooner : job / concurrency < number / concurrency) :
    before.filter (·.task == offset + job) =
      stamp (offset + job) (courses ++ rest)[job].begun ((courses ++ rest)[job].deeds count) := by
  -- Nothing in the first chunk is later than anything else in it.
  have behind : ∃ done, before = log ++ done ∧ others = done ++ entry :: tail := by
    rcases List.append_eq_append_iff.mp split with ⟨done, rfl, rfl⟩ | ⟨ahead, rfl, shared⟩
    · exact ⟨done, rfl, rfl⟩
    · cases ahead with
      | nil => exact ⟨[], by simp, shared.symm⟩
      | cons first ahead =>
          obtain ⟨rfl, -⟩ := List.cons.inj shared
          have := chunk.inside entry (by simp)
          rw [Nat.div_eq_of_lt (by omega : number < concurrency)] at sooner
          exact absurd sooner (Nat.not_lt_zero _)
  obtain ⟨done, rfl, rfl⟩ := behind
  have isLater := later.inside entry (by simp)
  obtain ⟨number, rfl⟩ : ∃ behind, number = courses.length + behind :=
    Nat.exists_eq_add_of_le (by omega)
  rw [List.filter_append]
  rcases Nat.lt_or_ge job courses.length with isFirst | isBehind
  · rw [List.getElem_append_left isFirst, chunk.own job isFirst, filter_eq_nil, List.append_nil]
    intro other member
    have := later.inside other (List.mem_append_left _ member)
    omega
  · obtain ⟨job, rfl⟩ := Nat.exists_eq_add_of_le isBehind
    obtain ⟨inside, equal⟩ := getElem_later isJob
    rw [length_of_later full (Nat.le_add_right _ _) isJob, Nat.add_div_left _ positive,
      Nat.add_div_left _ positive] at sooner
    rw [equal, filter_eq_nil, List.nil_append, ← Nat.add_assoc]
    · exact later.barrier done entry tail rfl job inside number (by omega) (by omega)
    · intro other member
      have := chunk.inside other member
      omega

omit chunk in
theorem handover_append (most : courses.length ≤ concurrency)
    (full : rest ≠ [] → courses.length = concurrency)
    (last : IsGreatest { time | ∃ course ∈ courses, course.ended = time } middle) {job : Nat}
    (isJob : job < (courses ++ rest).length) (late : concurrency ≤ job) :
    IsGreatest { time | ∃ earlier, ∃ isEarlier : earlier < (courses ++ rest).length,
      earlier / concurrency + 1 = job / concurrency ∧ (courses ++ rest)[earlier].ended = time }
      (courses ++ rest)[job].begun := by
  have isLater : courses.length ≤ job := by omega
  have size := length_of_later full isLater isJob
  obtain ⟨job, rfl⟩ := Nat.exists_eq_add_of_le isLater
  obtain ⟨inside, same⟩ := getElem_later isJob
  have next : (courses.length + job) / concurrency = job / concurrency + 1 := by
    rw [size, Nat.add_div_left _ positive]
  rw [same, next]
  rcases Nat.lt_or_ge job concurrency with soon | further
  -- The first chunk is the one before.
  · rw [later.first job inside soon, Nat.div_eq_of_lt soon]
    obtain ⟨⟨course, isCourse, ended⟩, upper⟩ := last
    constructor
    · obtain ⟨earlier, isEarlier, rfl⟩ := List.getElem_of_mem isCourse
      refine ⟨earlier, by rw [List.length_append]; omega, ?_, ?_⟩
      · rw [Nat.div_eq_of_lt (by omega)]
      · rw [List.getElem_append_left isEarlier, ended]
    · rintro _ ⟨earlier, isEarlier, before, rfl⟩
      have isFirst : earlier < courses.length := by
        rw [size]
        exact Nat.lt_of_div_eq_zero positive (by omega)
      rw [List.getElem_append_left isFirst]
      exact upper ⟨_, List.getElem_mem isFirst, rfl⟩
  -- The chunk before is a later one too.
  · obtain ⟨⟨earlier, isEarlier, before, ended⟩, upper⟩ := later.handover job inside further
    constructor
    · have isJob' : courses.length + earlier < (courses ++ rest).length := by
        rw [List.length_append]
        omega
      refine ⟨courses.length + earlier, isJob', ?_, (getElem_later isJob').2 ▸ ended⟩
      rw [size, Nat.add_div_left _ positive, before]
    · rintro _ ⟨earlier, isEarlier, before, rfl⟩
      have beyond : 1 ≤ job / concurrency := (Nat.one_le_div_iff positive).mpr further
      have isBehind : courses.length ≤ earlier := by
        rw [size, ← Nat.one_le_div_iff positive]
        omega
      obtain ⟨earlier, rfl⟩ := Nat.exists_eq_add_of_le isBehind
      obtain ⟨known, equal⟩ := getElem_later isEarlier
      rw [size, Nat.add_div_left _ positive] at before
      rw [equal]
      exact upper ⟨earlier, known, by omega, rfl⟩

theorem append (some : courses ≠ []) (most : courses.length ≤ concurrency)
    (full : rest ≠ [] → courses.length = concurrency)
    (last : IsGreatest { time | ∃ course ∈ courses, course.ended = time } middle) :
    Paced concurrency count offset (courses ++ rest) (log ++ others) begin finish where
  inside := by
    intro entry member
    rw [List.length_append]
    rcases List.mem_append.mp member with isFirst | isLater
    · have := chunk.inside entry isFirst
      omega
    · have := later.inside entry isLater
      omega
  own := own_append chunk later
  ordered := List.pairwise_append.mpr ⟨chunk.ordered, later.ordered,
    fun early isEarly late isLate =>
      (chunk.within early isEarly).2.trans (later.within late isLate).1⟩
  within := by
    intro entry member
    have first := chunk.begin_le
    have second := later.begin_le
    rcases List.mem_append.mp member with isFirst | isLater
    · have := chunk.within entry isFirst
      omega
    · have := later.within entry isLater
      omega
  barrier before entry tail split job isJob number same sooner :=
    barrier_append positive chunk later most full split isJob same sooner
  first := by
    intro job isJob soon
    rcases Nat.lt_or_ge job courses.length with isFirst | isLater
    · rw [List.getElem_append_left isFirst]
      exact chunk.first job isFirst soon
    · have := length_of_later full isLater isJob
      omega
  handover job isJob late := handover_append positive later most full last isJob late
  total := by
    rw [chunks_append positive some most full, List.map_cons, List.sum_cons, later.total,
      chunk.total, chunks_of_length_le positive some most, List.map_singleton, List.sum_singleton,
      Int.add_assoc]

end Append

end Paced

/-- Whether a job has started and has not settled yet. -/
def underway (job : Nat) (log : List Entry) : Bool :=
  log.any (·.task == job) && !log.any fun entry => entry.task == job && entry.deed.settles

variable {σ : Type} {host : Host σ} {gauge : Gauge σ} {setup : Setup} {count total : Nat}
variable {operation : BatchJob → Action Value} {moment : Moment σ}

namespace ChunkRun

variable {chunk : List BatchJob} {final : Scene σ (Except Failure BatchOutcome)}
variable {courses : List Course}

theorem inside
    (ran : ChunkRun host gauge setup count total operation chunk moment final courses)
    (offset : Nat) : ∀ entry ∈ final.log.map (Entry.shift offset),
      offset ≤ entry.task ∧ entry.task < offset + courses.length := by
  intro entry member
  obtain ⟨entry, isEntry, rfl⟩ := List.mem_map.mp member
  have known := ran.coherent.settled.inside entry isEntry
  rw [programsOf, List.length_map, ← ran.length] at known
  exact ⟨Nat.le_add_right _ _, Nat.add_lt_add_left known _⟩

theorem own (ran : ChunkRun host gauge setup count total operation chunk moment final courses)
    (offset job : Nat) (isJob : job < courses.length) :
    (final.log.map (Entry.shift offset)).filter (·.task == offset + job) =
      stamp (offset + job) courses[job].begun (courses[job].deeds count) := by
  rw [filter_shift, ran.shows job isJob, stamp_shift, ran.begun _ (List.getElem_mem isJob)]

theorem forward (ran : ChunkRun host gauge setup count total operation chunk moment final courses) :
    ∀ course ∈ courses, ∀ deed ∈ course.deeds count, 0 ≤ deed.span := by
  intro course isCourse
  obtain ⟨job, isJob, rfl⟩ := List.getElem_of_mem isCourse
  exact (ran.fits job isJob (ran.length ▸ isJob)).all_forward count

theorem past (ran : ChunkRun host gauge setup count total operation chunk moment final courses)
    (offset : Nat) :
    ∀ entry ∈ final.log.map (Entry.shift offset), entry.time ≤ final.now := by
  intro entry member
  obtain ⟨entry, isEntry, rfl⟩ := List.mem_map.mp member
  exact ran.coherent.settled.past entry isEntry

theorem last (ran : ChunkRun host gauge setup count total operation chunk moment final courses)
    (some : chunk ≠ []) :
    IsGreatest { time | ∃ course ∈ courses, course.ended = time } final.now := by
  refine Paced.last_ended (ran.inside 0) (ran.own 0) ran.forward (ran.past 0) ?_
  obtain ⟨entry, isEntry, time⟩ := ran.coherent.current ran.idle ran.nobody
    fun nothing => some (List.map_eq_nil_iff.mp nothing)
  exact ⟨_, List.mem_map_of_mem isEntry, time⟩

theorem paced {concurrency : Nat} (positive : 1 ≤ concurrency)
    (ran : ChunkRun host gauge setup count total operation chunk moment final courses)
    (some : chunk ≠ []) (most : chunk.length ≤ concurrency) (offset : Nat) :
    Paced concurrency count offset courses (final.log.map (Entry.shift offset)) moment.now
      final.now := by
  refine Paced.single positive ?_ (ran.length ▸ most) (ran.inside offset) (ran.own offset)
    ran.begun ran.forward ?_ (ran.past offset) (ran.last some)
  · rwa [← List.length_pos_iff, ran.length, List.length_pos_iff]
  · exact List.pairwise_map.mpr ran.coherent.settled.sorted

end ChunkRun

/-- Chunks of a batch that run one after the other do so without a gap. -/
theorem ChunksRun.paced {concurrency offset : Nat} (positive : 1 ≤ concurrency)
    {jobs : List BatchJob} {groups : List (List BatchJob)} {after : Moment σ} {log : List Entry}
    {courses : List Course}
    (run : ChunksRun host gauge setup count total operation offset groups moment after log courses)
    (split : groups = chunks concurrency jobs) :
    Paced concurrency count offset courses log moment.now after.now := by
  induction run generalizing jobs with
  | done => exact .nil _ _ _ _
  | @next offset chunk groups moment after final courses others log ran rest ih =>
      have nonempty : jobs ≠ [] := by
        rintro rfl
        cases split
      rw [chunks_of_ne_nil positive nonempty] at split
      obtain ⟨rfl, rfl⟩ := List.cons.inj split
      have some : jobs.take concurrency ≠ [] := by
        rw [Ne, List.take_eq_nil_iff]
        rintro (nothing | nothing)
        · omega
        · exact nonempty nothing
      have most : (jobs.take concurrency).length ≤ concurrency := List.length_take_le _ _
      have length := ran.length
      refine Paced.append positive (ran.paced positive some most offset) ?_ ?_ ?_ ?_ (ran.last some)
      · rw [length]
        exact ih rfl
      · rwa [← List.length_pos_iff, length, List.length_pos_iff]
      · rwa [length]
      · intro more
        have left := rest.length (chunks_flatten positive _)
        rw [List.length_drop] at left
        rw [← List.length_pos_iff, left] at more
        rw [length, List.length_take]
        omega

theorem Course.Fits.still (keeps : host.KeepsTime gauge) {course : Course} {job : BatchJob}
    (fits : course.Fits gauge.atOnce setup total job)
    (never : ∀ request, request.isNews = true → gauge.atOnce request) :
    course.ended = course.settled := by
  have nothing := fits.notifies.slept_eq_zero (notify_ends setup course.completed total)
    (IsNotice.atOnce keeps never)
  rw [Course.ended, nothing, Int.add_zero]

end WebHarvest.Batch
