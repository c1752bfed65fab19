import WebHarvest.Proofs.Harvester.Agreement
import WebHarvest.Proofs.Harvester.Session

/-!
# The accounts of a session

Whatever is done with a harvester, what is announced and what the observer is told add up with what
the units of work have come to.
-/

set_option autoImplicit false

namespace WebHarvest

/-- Requests of a batch around the work of its jobs. -/
def Request.isAside : Request → Bool
  | .now | .elapsed _ | .log _ | .beginCount | .countSettled _ | .progress .. => true
  | .emit kind _ => kind == .batchProgress || kind == .batchComplete
  | _ => false

theorem Request.isApart_of_isAside (request : Request) (own : request.isAside = true) :
    request.IsApart := by
  rintro call rfl
  cases own

theorem event?_of_isAside {exchange : Exchange} (own : exchange.request.isAside = true) :
    exchange.event? = none := by
  obtain ⟨request, reply⟩ := exchange
  cases request with
  | emit kind payload =>
      cases kind with
      | extractionComplete | retryAttempt | operationFailed => cases own
      | _ => rfl
  | pause | takeSlot | browser | observe => cases own
  | _ => rfl

namespace Batch

variable {setup : Setup}

theorem wrapUp_asks (job : BatchJob) (began : Int) (result : Except Failure Value) :
    (wrapUp job began result).Asks (·.isAside = true) := by
  cases result with
  | ok data => exact Action.asks_bind (Action.asks_query rfl) fun _ => Action.asks_pure _
  | error failure =>
      unfold wrapUp
      cases ordinary : failure.isOrdinary with
      | false =>
          simp only [ordinary, Bool.not_false, if_true]
          exact Action.asks_throw failure
      | true =>
          simp only [ordinary, Bool.not_true, Bool.false_eq_true, if_false]
          exact Action.asks_bind (Action.asks_log rfl) fun _ =>
            Action.asks_bind (Action.asks_query rfl) fun _ => Action.asks_pure _

theorem notify_asks (completed total : Nat) :
    (notify setup completed total).Asks (·.isAside = true) := by
  have calls : Action.Asks (·.isAside = true) (if setup.progress then
      (Action.progress completed total).recover Failure.isOrdinary fun fault =>
        Action.log (complaint completed total fault) else pure () : Action Unit) :=
    Action.asks_if (Action.asks_recover (Action.asks_progress rfl) fun _ => Action.asks_log rfl)
      (Action.asks_pure ())
  unfold notify
  exact Action.asks_if (Action.asks_bind (Action.asks_emit rfl) fun _ => calls) calls

theorem settled_asks (count total : Nat) (ended : Except Failure BatchOutcome) :
    (settled setup count total ended).Asks (·.isAside = true) := by
  cases ended with
  | error failure => exact .done _
  | ok outcome =>
      refine .ask rfl fun completed => (notify_asks completed total).bind fun told => ?_
      cases told with
      | ok | error => exact .done _

theorem opening_asks (total concurrency : Nat) :
    (opening total concurrency).Asks (·.isAside = true) :=
  Action.asks_bind (Action.asks_query rfl) fun _ =>
    Action.asks_bind (Action.asks_log rfl) fun _ => Action.asks_pure _

theorem closing_asks (outcomes : List BatchOutcome) :
    (closing setup outcomes).Asks (·.isAside = true) := by
  unfold closing
  exact Action.asks_bind (Action.asks_log rfl) fun _ =>
    Action.asks_if (Action.asks_emit rfl) (Action.asks_pure ())

variable {trace : List Exchange}

theorem notify_ok {completed total : Nat} {reply : Except Failure Unit}
    (run : (notify setup completed total).Runs trace reply)
    (mild : ∀ exchange ∈ trace, exchange.IsMild) : reply = .ok () := by
  have calls {trace : List Exchange}
      (run : Action.Runs (if setup.progress then
        (Action.progress completed total).recover Failure.isOrdinary fun fault =>
          Action.log (complaint completed total fault) else pure () : Action Unit) trace reply)
      (mild : ∀ exchange ∈ trace, exchange.IsMild) : reply = .ok () := by
    cases progress : setup.progress with
    | false =>
        rw [progress] at run
        exact (Action.runs_pure.mp run).2
    | true =>
        rw [progress] at run
        rcases Action.recover_runs run with ⟨_, -, rfl⟩ | ⟨fault, interrupts, lost, rfl⟩ |
          ⟨_, fault, _, -, -, handles, -⟩
        · rfl
        · obtain rfl := Program.runs_request.mp lost
          rw [(mild _ (List.mem_singleton_self _)).ordinary fault rfl] at interrupts
          cases interrupts
        · exact (Retry.log_runs.mp handles).2
  unfold notify at run
  cases signals : setup.signals with
  | false =>
      rw [signals] at run
      exact calls run mild
  | true =>
      rw [signals] at run
      rcases Action.runs_bind.mp run with ⟨_, _, _, -, goesOn, rfl⟩ | ⟨fault, lost, rfl⟩
      · exact calls goesOn fun exchange member => mild exchange (List.mem_append_right _ member)
      · obtain rfl := Action.runs_emit.mp lost
        exact (mild _ (List.mem_singleton_self _)).writes _ _ _ rfl

theorem settled_ok {count total : Nat} {outcome : BatchOutcome}
    {ended : Except Failure BatchOutcome}
    (run : (settled setup count total (.ok outcome)).Runs trace ended)
    (mild : ∀ exchange ∈ trace, exchange.IsMild) : ended = .ok outcome := by
  cases run with
  | ask completed rest =>
      obtain ⟨_, told, _, notifies, ends, rfl⟩ := Program.runs_bind.mp rest
      obtain rfl := notify_ok notifies fun exchange member =>
        mild exchange (List.mem_cons_of_mem _ (List.mem_append_left _ member))
      exact (Program.runs_done.mp ends).2

end Batch

namespace Harvester

/-- A unit of work, pursued to its end. -/
structure Pursuit (harvester : Harvester) where
  work : Work
  tries : List (Retry.Try Value)
  trace : List Exchange
  outcome : Except Failure Value
  pursued : work.Pursued harvester tries trace outcome

def Pursuit.unit {harvester : Harvester} (pursuit : Pursuit harvester) : Work × Option Value :=
  (pursuit.work, pursuit.outcome.toOption)

/-- What has been heard comes from pursuits of these units of work, one for each, and from what
stands around them. -/
structure Accounted (harvester : Harvester) (heard : List Exchange)
    (units : List (Work × Option Value)) (pursuits : List (Pursuit harvester)) : Prop where
  units : pursuits.map Pursuit.unit = units
  heard : ∃ others, heard.Perm (pursuits.flatMap (·.trace) ++ others) ∧
    ∀ exchange ∈ others, exchange.request.isAside = true

section Units

variable {harvester : Harvester} {first second trace : List Exchange}
variable {units more : List (Work × Option Value)} {pursuits others : List (Pursuit harvester)}

theorem Accounted.append (one : Accounted harvester first units pursuits)
    (other : Accounted harvester second more others) :
    Accounted harvester (first ++ second) (units ++ more) (pursuits ++ others) := by
  obtain ⟨aside, heard, own⟩ := one.heard
  obtain ⟨aside', heard', own'⟩ := other.heard
  refine ⟨by rw [List.map_append, one.units, other.units], aside ++ aside', ?_,
    List.forall_mem_append.mpr ⟨own, own'⟩⟩
  rw [List.flatMap_append]
  refine (heard.append heard').trans ?_
  rw [List.append_assoc, List.append_assoc]
  refine List.Perm.append_left _ ?_
  rw [← List.append_assoc, ← List.append_assoc]
  exact List.Perm.append_right _ List.perm_append_comm

theorem Accounted.perm (accounted : Accounted harvester first units pursuits)
    (same : second.Perm first) : Accounted harvester second units pursuits := by
  obtain ⟨aside, heard, own⟩ := accounted.heard
  exact ⟨accounted.units, aside, same.trans heard, own⟩

theorem Accounted.aside (own : ∀ exchange ∈ trace, exchange.request.isAside = true) :
    Accounted harvester trace [] [] :=
  ⟨rfl, trace, .refl _, own⟩

theorem Accounted.amid {before after : List Exchange}
    (accounted : Accounted harvester trace units pursuits)
    (early : ∀ exchange ∈ before, exchange.request.isAside = true)
    (late : ∀ exchange ∈ after, exchange.request.isAside = true) :
    Accounted harvester (before ++ (trace ++ after)) units pursuits := by
  have starts : Accounted harvester before [] [] := .aside early
  have whole := starts.append (accounted.append (.aside late))
  rwa [List.append_nil, List.append_nil, List.nil_append, List.nil_append] at whole

theorem accounted_of_work {work : Work} {outcome : Except Failure Value}
    (run : (work.action harvester).Runs trace outcome) :
    ∃ pursuits : List (Pursuit harvester),
      Accounted harvester trace [(work, outcome.toOption)] pursuits := by
  obtain ⟨tries, pursued⟩ := Work.action_pursued run
  refine ⟨[⟨work, tries, trace, outcome, pursued⟩], rfl, [], .of_eq ?_,
    fun _ member => absurd member List.not_mem_nil⟩
  rw [List.append_nil, List.flatMap_singleton]

theorem accounted_of_errand {errand : Errand} {outcome : Except Failure Value}
    (run : (errand.action harvester).Runs trace outcome) :
    ∃ pursuits : List (Pursuit harvester),
      Accounted harvester trace (Step.unitOfCall errand (some outcome)).toList pursuits := by
  unfold Step.unitOfCall
  obtain ⟨failure, refused, rfl, rfl⟩ | ⟨work, pursues, run⟩ := Errand.action_runs run
  · rw [refused]
    exact ⟨[], .aside fun _ member => absurd member List.not_mem_nil⟩
  · rw [pursues]
    exact accounted_of_work run

theorem filterMap_cons_toList {α β : Type} (f : α → Option β) (item : α) (items : List α) :
    (item :: items).filterMap f = (f item).toList ++ items.filterMap f := by
  cases found : f item with
  | none => rw [List.filterMap_cons_none found, Option.toList_none, List.nil_append]
  | some value => rw [List.filterMap_cons_some found, Option.toList_some, List.singleton_append]

/-- Calls that have all ended. -/
theorem accounted_of_calls {errands : List Errand}
    {courses : List (List Exchange × Except Failure Value)}
    (runs : List.Forall₂ (fun program course => program.Runs course.1 course.2)
      (Step.programs harvester errands) courses) :
    ∃ pursuits : List (Pursuit harvester), Accounted harvester (courses.flatMap (·.1))
      (Step.unitsOfCalls errands (courses.map fun course => some course.2)) pursuits := by
  rw [Step.programs, List.forall₂_map_left_iff] at runs
  induction runs with
  | nil => exact ⟨[], .aside fun _ member => absurd member List.not_mem_nil⟩
  | @cons errand course errands courses ran _ ih =>
      obtain ⟨pursuits, first⟩ := accounted_of_errand ran
      obtain ⟨others, rest⟩ := ih
      refine ⟨pursuits ++ others, ?_⟩
      rw [List.flatMap_cons, Step.unitsOfCalls, List.map_cons, List.zip_cons_cons,
        filterMap_cons_toList]
      exact first.append rest

/-- A job of a batch works, makes an outcome of what it comes to, and notifies. -/
theorem settle_runs {setup : Batch.Setup} {count total : Nat}
    {operation : BatchJob → Action Value} {job : BatchJob} {ended : Except Failure BatchOutcome}
    (run : (Batch.settle setup count total operation job).run.Runs trace ended) :
    ∃ began inside result wrapped middle told,
      trace = ⟨.now, began⟩ :: (inside ++ (wrapped ++ told)) ∧
      (Batch.work setup operation job).Runs inside result ∧
      (Batch.wrapUp job began result).Runs wrapped middle ∧
      (Batch.settled setup count total middle).Runs told ended := by
  rw [Batch.settle_run] at run
  cases run with
  | ask began rest =>
      obtain ⟨inside, result, after, ran, goesOn, rfl⟩ := Program.runs_bind.mp rest
      obtain ⟨wrapped, middle, told, wraps, settles, rfl⟩ := Program.runs_bind.mp goesOn
      exact ⟨began, inside, result, wrapped, middle, told, rfl, ran, wraps, settles⟩

variable {progress : Bool} {count total : Nat}

theorem unitOfJob_eq {job : BatchJob} {work : Work} (pursues : workOf job = .ok work)
    {outcome : BatchOutcome} {result : Except Failure Value}
    (untimed : outcome.untimed = job.outcome result) :
    Step.unitOfJob job outcome = some (work, result.toOption) := by
  have success : outcome.success = (job.outcome result).success := congrArg (·.success) untimed
  have data : outcome.data = (job.outcome result).data := congrArg (·.data) untimed
  rw [Step.unitOfJob, pursues, success, data]
  cases result with
  | ok | error => rfl

/-- A job comes to an outcome, and the rest of what it does stands aside of its work. -/
theorem accounted_of_job {job : BatchJob} {work : Work} (pursues : workOf job = .ok work)
    {ended : Except Failure BatchOutcome}
    (run : (Batch.settle (harvester.batchSetup progress) count total harvester.jobOperation
      job).run.Runs trace ended)
    (mild : ∀ exchange ∈ trace, exchange.IsMild) :
    ∃ (outcome : BatchOutcome) (pursuits : List (Pursuit harvester)), ended = .ok outcome ∧
      Accounted harvester trace (Step.unitOfJob job outcome).toList pursuits := by
  obtain ⟨began, inside, result, wrapped, middle, told, rfl, ran, wraps, settles⟩ :=
    settle_runs run
  rw [List.forall_mem_cons, List.forall_mem_append, List.forall_mem_append] at mild
  rw [work_of_job harvester progress pursues] at ran
  obtain ⟨tries, pursued⟩ := Work.action_pursued ran
  have ordinary := (pursued.account mild.2.1).2
  obtain ⟨failure, rfl, interrupts, -⟩ | ⟨outcome, rfl, untimed⟩ := wrapUp_runs wraps
  · rw [ordinary failure rfl] at interrupts
    cases interrupts
  · obtain rfl := Batch.settled_ok settles mild.2.2.2
    obtain ⟨pursuits, accounted⟩ := accounted_of_work ran
    have around : ∀ exchange ∈ wrapped ++ told, exchange.request.isAside = true :=
      List.forall_mem_append.mpr ⟨(Batch.wrapUp_asks job began result).request_mem wraps,
        (Batch.settled_asks count total _).request_mem settles⟩
    have looked : ∀ exchange ∈ ([⟨.now, began⟩] : List Exchange),
        exchange.request.isAside = true := List.forall_mem_singleton.mpr rfl
    refine ⟨outcome, pursuits, rfl, ?_⟩
    rw [unitOfJob_eq pursues untimed, Option.toList_some]
    exact accounted.amid looked around

/-- Jobs that have all ended. -/
theorem accounted_of_jobs {jobs : List BatchJob}
    (compiled : ∀ job ∈ jobs, ∃ work, workOf job = .ok work)
    {courses : List (List Exchange × Except Failure BatchOutcome)}
    (runs : List.Forall₂ (fun program course => program.Runs course.1 course.2)
      (Batch.programsOf (harvester.batchSetup progress) count total harvester.jobOperation jobs)
      courses)
    (mild : ∀ exchange ∈ courses.flatMap (·.1), exchange.IsMild) :
    ∃ (outcomes : List BatchOutcome) (pursuits : List (Pursuit harvester)),
      courses.map (·.2) = outcomes.map .ok ∧
      Accounted harvester (courses.flatMap (·.1)) (Step.unitsOfBatch jobs outcomes) pursuits := by
  rw [Batch.programsOf, List.forall₂_map_left_iff] at runs
  induction runs with
  | nil => exact ⟨[], [], rfl, .aside fun _ member => absurd member List.not_mem_nil⟩
  | @cons job course jobs courses ran _ ih =>
      rw [List.forall_mem_cons] at compiled
      rw [List.flatMap_cons, List.forall_mem_append] at mild
      obtain ⟨work, pursues⟩ := compiled.1
      obtain ⟨outcome, pursuits, ended, first⟩ := accounted_of_job pursues ran mild.1
      obtain ⟨outcomes, others, same, rest⟩ := ih compiled.2 mild.2
      refine ⟨outcome :: outcomes, pursuits ++ others, ?_, ?_⟩
      · rw [List.map_cons, List.map_cons, ended, same]
      · rw [List.flatMap_cons, Step.unitsOfBatch, List.zip_cons_cons, filterMap_cons_toList]
        exact first.append rest

end Units

section Chunks

variable {σ : Type} {host : Host σ} {wakeups : Nat} {harvester : Harvester} {moment : Moment σ}
variable {progress : Bool} {count total : Nat}

/-- A chunk whose jobs have all ended has an outcome for each of them. -/
theorem accounted_of_chunk {chunk : List BatchJob}
    (compiled : ∀ job ∈ chunk, ∃ work, workOf job = .ok work) (alone : moment.strays = [])
    (finishes : moment.Finishes host wakeups Batch.stops
      (Batch.programsOf (harvester.batchSetup progress) count total harvester.jobOperation chunk))
    (mild : ∀ exchange ∈ moment.exchanges host wakeups Batch.stops
      (Batch.programsOf (harvester.batchSetup progress) count total harvester.jobOperation chunk),
      exchange.IsMild) :
    ∃ (outcomes : List BatchOutcome) (pursuits : List (Pursuit harvester)),
      Batch.gather chunk.length (moment.runAll host wakeups Batch.stops
        (Batch.programsOf (harvester.batchSetup progress) count total harvester.jobOperation
          chunk)).2 = .ok outcomes ∧
      outcomes.length = chunk.length ∧
      Accounted harvester (moment.exchanges host wakeups Batch.stops
        (Batch.programsOf (harvester.batchSetup progress) count total harvester.jobOperation chunk))
        (Step.unitsOfBatch chunk outcomes) pursuits := by
  obtain ⟨courses, runs, heard, ended⟩ := Moment.runs_of_finishes alone finishes
  obtain ⟨outcomes, pursuits, same, accounted⟩ := accounted_of_jobs compiled runs
    fun exchange member => mild exchange (heard.mem_iff.mpr member)
  have lengths : courses.length = outcomes.length := by
    simpa only [List.length_map] using congrArg List.length same
  have length : outcomes.length = chunk.length := by
    rw [← lengths, ← runs.length_eq, Batch.programsOf, List.length_map]
  have tasks := Moment.tasks_of_finishes alone finishes
  rw [Batch.programsOf, List.length_map] at tasks
  refine ⟨outcomes, pursuits, Batch.gather_of_ok length tasks fun task inside => ?_, length,
    accounted.perm heard⟩
  have known : task < courses.length := inside.trans_eq lengths.symm
  have result : courses[task].2 = .ok outcomes[task] := by
    have both := congrArg (·[task]?) same
    simpa [known, inside] using both
  exact result ▸ ended task known

theorem unitsOfBatch_append {chunk rest : List BatchJob} {outcomes others : List BatchOutcome}
    (length : outcomes.length = chunk.length) :
    Step.unitsOfBatch (chunk ++ rest) (outcomes ++ others) =
      Step.unitsOfBatch chunk outcomes ++ Step.unitsOfBatch rest others := by
  rw [Step.unitsOfBatch, List.zip_append length.symm, List.filterMap_append]
  rfl

/-- Chunks that have come to their end have an outcome for every job. -/
theorem accounted_of_chunks {groups : List (List BatchJob)}
    (compiled : ∀ chunk ∈ groups, ∀ job ∈ chunk, ∃ work, workOf job = .ok work)
    (alone : moment.strays = [])
    (finishes : Batch.ChunksFinish host wakeups (harvester.batchSetup progress) count total
      harvester.jobOperation groups moment)
    (mild : ∀ exchange ∈ Batch.chunkExchanges host wakeups (harvester.batchSetup progress) count
      total harvester.jobOperation groups moment, exchange.IsMild) :
    ∃ (after : Moment σ) (outcomes : List BatchOutcome) (pursuits : List (Pursuit harvester)),
      Batch.runChunks host wakeups (harvester.batchSetup progress) count total
        harvester.jobOperation groups moment = (after, .ok outcomes) ∧
      after.strays = [] ∧
      Accounted harvester (Batch.chunkExchanges host wakeups (harvester.batchSetup progress) count
        total harvester.jobOperation groups moment)
        (Step.unitsOfBatch groups.flatten outcomes) pursuits := by
  induction groups generalizing moment with
  | nil =>
      exact ⟨moment, [], [], rfl, alone, .aside fun _ member => absurd member List.not_mem_nil⟩
  | cons chunk groups ih =>
      rw [List.forall_mem_cons] at compiled
      rw [Batch.chunkExchanges, List.forall_mem_append] at mild
      obtain ⟨ends, finishes⟩ := finishes
      obtain ⟨outcomes, pursuits, gathered, length, first⟩ :=
        accounted_of_chunk compiled.1 alone ends mild.1
      obtain ⟨after, others, more, ran, quiet, rest⟩ :=
        ih compiled.2 (Moment.alone_of_finishes alone ends) finishes mild.2
      refine ⟨after, outcomes ++ others, pursuits ++ more, ?_, quiet, ?_⟩
      · rw [Batch.programsOf] at gathered ran
        simp only [Batch.runChunks, gathered, ran, Except.map]
      · rw [List.flatten_cons, unitsOfBatch_append length]
        exact first.append rest

theorem opening_ok {total concurrency : Nat} {trace : List Exchange} {reply : Except Failure Nat}
    (run : (Batch.opening total concurrency).Runs trace reply) : ∃ count, reply = .ok count := by
  unfold Batch.opening at run
  rcases Action.runs_bind.mp run with ⟨_, count, _, -, logs, rfl⟩ | ⟨_, lost, -⟩
  · rcases Action.runs_bind.mp logs with ⟨_, _, _, -, ends, rfl⟩ | ⟨_, lost, -⟩
    · exact ⟨count, (Action.runs_pure.mp ends).2⟩
    · cases (Retry.log_runs.mp lost).2
  · obtain ⟨_, -, impossible⟩ := Action.runs_query.mp lost
    cases impossible

theorem closing_ok {setup : Batch.Setup} {outcomes : List BatchOutcome} {trace : List Exchange}
    {reply : Except Failure Unit} (run : (Batch.closing setup outcomes).Runs trace reply)
    (mild : ∀ exchange ∈ trace, exchange.IsMild) : reply = .ok () := by
  unfold Batch.closing at run
  rcases Action.runs_bind.mp run with ⟨_, _, _, -, emits, rfl⟩ | ⟨_, lost, -⟩
  · cases signals : setup.signals with
    | false =>
        rw [signals] at emits
        exact (Action.runs_pure.mp emits).2
    | true =>
        rw [signals] at emits
        obtain rfl := Action.runs_emit.mp emits
        exact (mild _ (List.mem_append_right _ (List.mem_singleton_self _))).writes _ _ _ rfl
  · cases (Retry.log_runs.mp lost).2

/-- A batch that has come to its end has returned an outcome for every job. -/
theorem accounted_of_batch {jobs : List BatchJob} {concurrency : Nat} (positive : 1 ≤ concurrency)
    (compiled : ∀ job ∈ jobs, ∃ work, workOf job = .ok work) (alone : moment.strays = [])
    (finishes : Batch.Finishes host wakeups (harvester.batchSetup progress) jobs concurrency
      harvester.jobOperation moment)
    (mild : ∀ exchange ∈ Batch.exchanges host wakeups (harvester.batchSetup progress) jobs
      concurrency harvester.jobOperation moment, exchange.IsMild) :
    ∃ (after : Moment σ) (outcomes : List BatchOutcome) (pursuits : List (Pursuit harvester)),
      Batch.run host wakeups (harvester.batchSetup progress) jobs concurrency
        harvester.jobOperation moment = (after, .ok outcomes) ∧
      after.strays = [] ∧
      Accounted harvester (Batch.exchanges host wakeups (harvester.batchSetup progress) jobs
        concurrency harvester.jobOperation moment) (Step.unitsOfBatch jobs outcomes) pursuits := by
  obtain ⟨begins, goesOn⟩ := finishes
  obtain ⟨early, opens, heard, quiet⟩ := Moment.perform_of_finishes alone begins
  rcases opening : moment.perform host wakeups (Batch.opening jobs.length concurrency) with
    ⟨opened, reply⟩
  rw [opening] at opens quiet
  obtain ⟨count, rfl⟩ := opening_ok opens
  simp only [opening, Except.ok.injEq, forall_eq'] at goesOn
  simp only [Batch.exchanges, opening, List.forall_mem_append] at mild
  obtain ⟨settled, outcomes, pursuits, ran, calm, accounted⟩ := accounted_of_chunks
    (Batch.forall_chunks positive compiled) quiet goesOn.1 mild.2.1
  simp only [ran, Except.ok.injEq, forall_eq'] at goesOn mild
  obtain ⟨late, closes, heardLast, still⟩ := Moment.perform_of_finishes calm goesOn.2
  rcases closing : settled.perform host wakeups
    (Batch.closing (harvester.batchSetup progress) outcomes) with ⟨after, reply⟩
  rw [closing] at closes still
  obtain rfl := closing_ok closes fun exchange member =>
    mild.2.2 exchange (heardLast.mem_iff.mpr member)
  refine ⟨after, outcomes, pursuits, ?_, still, ?_⟩
  · simp only [Batch.run, opening, ran, closing, Except.map]
  · simp only [Batch.exchanges, opening, ran]
    rw [Batch.chunks_flatten positive] at accounted
    refine accounted.amid (fun exchange member => ?_) fun exchange member => ?_
    · exact (Batch.opening_asks _ _).request_mem opens exchange (heard.mem_iff.mp member)
    · exact (Batch.closing_asks outcomes).request_mem closes exchange
        (heardLast.mem_iff.mp member)

end Chunks

section Arguments

variable {jobs : List BatchJob} {concurrency : Nat}

/-- When steps have all succeeded, each item has a result and each result has an item. -/
theorem mapM_members {ε α β : Type} {step : α → Except ε β} {items : List α} {results : List β}
    (ran : items.mapM step = .ok results) :
    (∀ item ∈ items, ∃ result, step item = .ok result) ∧
      ∀ result ∈ results, ∃ item ∈ items, step item = .ok result := by
  induction items generalizing results with
  | nil =>
      rw [List.mapM_nil] at ran
      obtain rfl := Except.ok.inj ran
      exact ⟨fun _ member => absurd member List.not_mem_nil,
        fun _ member => absurd member List.not_mem_nil⟩
  | cons item items ih =>
      rw [List.mapM_cons] at ran
      obtain ⟨result, first, rest⟩ := Outcome.bind_ok_iff.mp ran
      obtain ⟨others, later, same⟩ := Outcome.bind_ok_iff.mp rest
      obtain rfl := Except.ok.inj same
      obtain ⟨each, all⟩ := ih later
      refine ⟨List.forall_mem_cons.mpr ⟨⟨result, first⟩, each⟩,
        List.forall_mem_cons.mpr ⟨⟨item, List.mem_cons_self, first⟩, fun other member => ?_⟩⟩
      obtain ⟨source, isItem, succeeded⟩ := all other member
      exact ⟨source, List.mem_cons_of_mem _ isItem, succeeded⟩

theorem positive_of_concurrencyOf {value : Value}
    (accepted : Batch.concurrencyOf value = .ok concurrency) : 1 ≤ concurrency := by
  unfold Batch.concurrencyOf at accepted
  split at accepted
  · split at accepted
    · obtain rfl := Except.ok.inj accepted
      omega
    · cases accepted
  · cases accepted

theorem work_of_compiled {url selector : String} {extractor : Value} {options : HarvestOptions}
    {done : Unit} (compiled : compileJob (.job url selector extractor options) = .ok done) :
    ∃ work, workOf ⟨url, selector, extractor, options⟩ = .ok work := by
  change (Failure.ofSchema (Schema.compileExtractor extractor)).map (fun _ => ()) = _ at compiled
  unfold workOf
  cases found : Failure.ofSchema (Schema.compileExtractor extractor) with
  | ok schema => exact ⟨_, rfl⟩
  | error failure =>
      rw [found] at compiled
      cases compiled

/-- A batch that gets past its checks has jobs whose extractors compile. -/
theorem compiled_of_batchArguments {given size : Value}
    (accepted : batchArguments given size = .ok (jobs, concurrency)) :
    1 ≤ concurrency ∧ ∀ job ∈ jobs, ∃ work, workOf job = .ok work := by
  unfold batchArguments at accepted
  cases found : Batch.sequenceOf given with
  | none =>
      rw [found] at accepted
      cases accepted
  | some items =>
      rw [found] at accepted
      obtain ⟨entries, -, checks⟩ := Outcome.bind_ok_iff.mp accepted
      obtain ⟨units, compiles, arguments⟩ := Outcome.bind_ok_iff.mp checks
      obtain ⟨number, positive, lists⟩ := Outcome.bind_ok_iff.mp arguments
      obtain ⟨list, named, same⟩ := Outcome.bind_ok_iff.mp lists
      obtain ⟨rfl, rfl⟩ := Prod.mk.inj (Except.ok.inj same)
      refine ⟨positive_of_concurrencyOf positive, fun job member => ?_⟩
      obtain ⟨⟨entry, index⟩, isEntry, isJob⟩ := (mapM_members named).2 job member
      obtain ⟨done, compiled⟩ :=
        (mapM_members compiles).1 entry (List.fst_mem_of_mem_zipIdx isEntry)
      cases entry with
      | job url selector extractor options =>
          obtain rfl := Except.ok.inj isJob
          exact work_of_compiled compiled
      | _ => cases isJob

end Arguments

section Sessions

variable {σ : Type} {host : Host σ} {wakeups : Nat} {harvester : Harvester} {moment : Moment σ}

theorem accounted_of_step {step : Step} (alone : moment.strays = [])
    (finishes : step.Finishes host wakeups harvester moment)
    (mild : ∀ exchange ∈ step.exchanges host wakeups harvester moment, exchange.IsMild) :
    (step.perform host wakeups harvester moment).1.strays = [] ∧
      ∃ pursuits, Accounted harvester (step.exchanges host wakeups harvester moment)
        (step.perform host wakeups harvester moment).2 pursuits := by
  cases step with
  | calls errands =>
      obtain ⟨courses, runs, heard, results⟩ := Moment.together_of_finishes alone finishes
      obtain ⟨pursuits, accounted⟩ := accounted_of_calls runs
      refine ⟨Moment.alone_of_finishes alone finishes, pursuits, ?_⟩
      simp only [Step.perform, results]
      exact accounted.perm heard
  | batch jobs concurrency progress =>
      cases checks : batchArguments jobs concurrency with
      | error failure =>
          simp only [Step.perform, Step.exchanges, harvestBatch, checks]
          exact ⟨alone, [], .aside fun _ member => absurd member List.not_mem_nil⟩
      | ok checked =>
          obtain ⟨accepted, size⟩ := checked
          obtain ⟨positive, compiled⟩ := compiled_of_batchArguments checks
          have ends : Batch.Finishes host wakeups (harvester.batchSetup progress) accepted size
              harvester.jobOperation moment := finishes (accepted, size) checks
          simp only [Step.exchanges, checks] at mild ⊢
          obtain ⟨after, outcomes, pursuits, ran, quiet, accounted⟩ :=
            accounted_of_batch positive compiled alone ends mild
          simp only [Step.perform, harvestBatch, checks, ran]
          exact ⟨quiet, pursuits, accounted⟩

theorem accounted_of_session {steps : List Step} (alone : moment.strays = [])
    (finishes : Session.Finishes host wakeups harvester steps moment)
    (mild : ∀ exchange ∈ Session.exchanges host wakeups harvester steps moment, exchange.IsMild) :
    ∃ pursuits, Accounted harvester (Session.exchanges host wakeups harvester steps moment)
      (Session.units host wakeups harvester steps moment) pursuits := by
  induction steps generalizing moment with
  | nil => exact ⟨[], .aside fun _ member => absurd member List.not_mem_nil⟩
  | cons step steps ih =>
      rw [Session.exchanges, List.forall_mem_append] at mild
      obtain ⟨quiet, pursuits, first⟩ := accounted_of_step alone finishes.1 mild.1
      obtain ⟨others, rest⟩ := ih quiet finishes.2 mild.2
      exact ⟨pursuits ++ others, first.append rest⟩

end Sessions

section Totals

variable {harvester : Harvester} {heard : List Exchange} {units : List (Work × Option Value)}
variable {pursuits : List (Pursuit harvester)}

/-- What a unit of work announces: the target, the selector, the number of the records and the mode
in which their extractor was compiled. -/
def announced (unit : Work × Option Value) : Option (Value × Value × Value × Value) :=
  (unit.2.bind unit.1.completion?).bind Event.completed?

/-- The unit has come to records. -/
def hasRecords (unit : Work × Option Value) : Bool := unit.1.goal.isRecords && unit.2.isSome

theorem announced_unit (pursuit : Pursuit harvester) :
    (pursuit.work.completions pursuit.outcome).filterMap (·.completed?) =
      (announced pursuit.unit).toList := by
  unfold announced Pursuit.unit Work.completions
  cases pursuit.outcome with
  | error failure => rfl
  | ok value =>
      show _ = ((pursuit.work.completion? value).bind Event.completed?).toList
      dsimp only
      cases pursuit.work.completion? value with
      | none => rfl
      | some event =>
          show [event].filterMap _ = (event.completed?).toList
          rw [filterMap_cons_toList, List.filterMap_nil, List.append_nil]

/-- How the events of a session add up, given the units of work with the values that they have come
to, and the number of all attempts. -/
structure Totals (harvester : Harvester) (log : List Event) (units : List (Work × Option Value))
    (attempts : Nat) : Prop where
  /-- Apart from stranded work, every attempt but the first of a unit is announced. -/
  retried : log.countP (·.isRetried) + units.length = attempts + log.countP (·.isStranded)
  /-- Apart from stranded work, every failed unit is reported. -/
  failed : log.countP (·.isReported) + log.countP (·.isStranded) = units.countP (·.2.isNone)
  /-- The observer, if there is one, hears every report. -/
  observed : log.countP (·.isObserved) =
    if harvester.config.onError then log.countP (·.isReported) else 0
  /-- On a started browser every attempt asks for one page. -/
  opened : log.countP (·.isOpening) = if harvester.started then attempts else 0
  completed : (log.filterMap (·.completed?)).Perm (units.filterMap announced)
  /-- Whatever has come to records is announced. -/
  extracted : ∀ unit ∈ units, (announced unit).isSome = hasRecords unit

theorem Totals.perm {log other : List Event} {attempts : Nat}
    (totals : Totals harvester log units attempts) (same : other.Perm log) :
    Totals harvester other units attempts where
  retried := by rw [same.countP_eq, same.countP_eq, totals.retried]
  failed := by rw [same.countP_eq, same.countP_eq, totals.failed]
  observed := by rw [same.countP_eq, same.countP_eq, totals.observed]
  opened := by rw [same.countP_eq, totals.opened]
  completed := (same.filterMap _).trans totals.completed
  extracted := totals.extracted

theorem isSome_announced {work : Work} {value : Value} :
    (announced (work, some value)).isSome = (work.completion? value).isSome := by
  show ((work.completion? value).bind Event.completed?).isSome = _
  unfold Work.completion?
  split
  · cases (lengthOf value).toOption with
    | none | some => rfl
  · rfl

/-- What one more unit of work adds. -/
theorem Totals.cons {pursuit : Pursuit harvester} {own log : List Event} {attempts : Nat}
    (account : Account harvester pursuit.work pursuit.tries.length pursuit.outcome own)
    (totals : Totals harvester log units attempts) :
    Totals harvester (own ++ log) (pursuit.unit :: units) (pursuit.tries.length + attempts) := by
  refine ⟨?_, ?_, ?_, ?_, ?_, ?_⟩
  · have first := account.retried
    have rest := totals.retried
    simp only [List.countP_append, List.length_cons]
    omega
  · have first := account.failed
    have rest := totals.failed
    have fails : (if pursuit.outcome.isOk = true then 0 else 1) =
        if pursuit.unit.2.isNone = true then 1 else 0 := by
      unfold Pursuit.unit
      cases pursuit.outcome with
      | ok | error => rfl
    simp only [List.countP_append, List.countP_cons, ← fails]
    omega
  · rw [List.countP_append, List.countP_append, account.observed, totals.observed]
    cases harvester.config.onError with
    | true | false => rfl
  · rw [List.countP_append, account.opened, totals.opened]
    cases harvester.started with
    | true | false => rfl
  · rw [List.filterMap_append, filterMap_cons_toList, account.completed, announced_unit]
    exact totals.completed.append_left _
  · refine List.forall_mem_cons.mpr ⟨?_, totals.extracted⟩
    have counted := account.counted
    unfold hasRecords Pursuit.unit
    cases result : pursuit.outcome with
    | ok value =>
        rw [Except.toOption, isSome_announced, counted value result, Option.isSome_some,
          Bool.and_true]
    | error failure => rw [Except.toOption, Option.isSome_none, Bool.and_false]; rfl

theorem totals_of_pursuits (pursuits : List (Pursuit harvester))
    (mild : ∀ exchange ∈ pursuits.flatMap (·.trace), exchange.IsMild) :
    Totals harvester (events (pursuits.flatMap (·.trace))) (pursuits.map Pursuit.unit)
      (pursuits.map (·.tries.length)).sum := by
  induction pursuits with
  | nil =>
      refine ⟨rfl, rfl, ?_, ?_, .refl _, fun _ member => absurd member List.not_mem_nil⟩
      · exact (ite_self 0).symm
      · exact (ite_self 0).symm
  | cons pursuit pursuits ih =>
      rw [List.flatMap_cons, List.forall_mem_append] at mild
      rw [List.flatMap_cons, events_append, List.map_cons, List.map_cons, List.sum_cons]
      exact .cons (pursuit.pursued.account mild.1).1 (ih mild.2)

theorem Accounted.totals (accounted : Accounted harvester heard units pursuits)
    (mild : ∀ exchange ∈ heard, exchange.IsMild) :
    Totals harvester (events heard) units (pursuits.map (·.tries.length)).sum := by
  obtain ⟨others, same, aside⟩ := accounted.heard
  have totals := totals_of_pursuits pursuits fun exchange member =>
    mild exchange (same.mem_iff.mpr (List.mem_append_left _ member))
  rw [accounted.units] at totals
  refine totals.perm ((same.filterMap _).trans (.of_eq ?_))
  show events (_ ++ others) = _
  rw [events_append, events_eq_nil fun exchange member => event?_of_isAside (aside exchange member),
    List.append_nil]

/-- The limiter is asked for a target once, and it is asked before anything else. -/
def Pursuit.AdmittedOnce (pursuit : Pursuit harvester) : Prop :=
  ∃ before rest reply, pursuit.trace = before ++ rest ∧
    (acquire pursuit.work.url).Runs before reply ∧
    (∀ exchange ∈ before, exchange.request.isSlot = true) ∧
    ∀ exchange ∈ rest, exchange.request.isSlot = false

theorem isSlot_of_isAttempt {request : Request} (own : request.isAttempt = true) :
    request.isSlot = false := by
  cases request with
  | takeSlot => cases own
  | _ => rfl

theorem isSlot_of_isRetry {request : Request} (own : request.isRetry = true) :
    request.isSlot = false := by
  cases request with
  | takeSlot => cases own
  | _ => rfl

theorem Pursuit.admittedOnce (pursuit : Pursuit harvester) : pursuit.AdmittedOnce := by
  obtain ⟨work, tries, trace, outcome, pursued⟩ := pursuit
  cases pursued with
  | refused lost =>
      exact ⟨_, [], _, (List.append_nil _).symm, lost, (acquire_asks _).request_mem lost,
        fun _ member => absurd member List.not_mem_nil⟩
  | admitted passes tried =>
      refine ⟨_, _, _, rfl, passes, (acquire_asks _).request_mem passes,
        List.forall_mem_cons.mpr ⟨rfl, fun exchange member => ?_⟩⟩
      obtain ⟨attempt, isTry, inside⟩ := List.mem_flatMap.mp member
      obtain ⟨ran, followed⟩ := tried.member attempt isTry
      rcases List.mem_append.mp inside with inside | inside
      · exact isSlot_of_isAttempt (Work.attempt_asks.request_mem ran exchange inside)
      · exact isSlot_of_isRetry (followed.isRetry exchange inside)

/-- For every host and every session that comes to its end, as long as the host fails in ordinary
ways and every signal is added to the ledger: each unit of work is pursued once, the limiter is
asked for it once and before anything else, and what is announced and what the observer hears add up
with the attempts and with what the units have come to. Only work that is stranded, because the
limiter or a pause between attempts fails, is missing from the reports. -/
theorem session_accounts {σ : Type} (host : Host σ) (wakeups : Nat) (harvester : Harvester)
    (steps : List Step) {moment : Moment σ} (alone : moment.strays = [])
    (finishes : Session.Finishes host wakeups harvester steps moment)
    (mild : ∀ exchange ∈ Session.exchanges host wakeups harvester steps moment, exchange.IsMild) :
    let heard := Session.exchanges host wakeups harvester steps moment
    let units := Session.units host wakeups harvester steps moment
    ∃ pursuits : List (Pursuit harvester),
      Accounted harvester heard units pursuits ∧
      (∀ pursuit ∈ pursuits, pursuit.AdmittedOnce) ∧
      Totals harvester (events heard) units (pursuits.map (·.tries.length)).sum := by
  intro heard units
  obtain ⟨pursuits, accounted⟩ := accounted_of_session alone finishes mild
  exact ⟨pursuits, accounted, fun pursuit _ => pursuit.admittedOnce, accounted.totals mild⟩

open Simulation in
/-- Two calls at the same time, the first of which has to be tried twice, and then a batch of one
job. -/
theorem session_accounts_retried :
    let late : Turn := { outcome := some (.error (.raise .browser "net::ERR")) }
    let moment : Moment (World Int) := .initial { engine := { script := [("goto", [late])] } }
    let harvester : Harvester :=
      { config := { retry := { maxAttempts := 2 } }, held := { context := some 3 } }
    let job : BatchJob := ⟨"http://a/", "li", .null, {}⟩
    let steps : List Step :=
      [.calls [.harvest "http://a/" "li" .null {}, .harvestCustom "http://b/" (.text "f") {}],
        .batch (.list [job.toValue]) (.int 2) true]
    let heard := Session.exchanges World.host 9 harvester steps moment
    let units := Session.units World.host 9 harvester steps moment
    Session.Finishes World.host 9 harvester steps moment ∧
      (∀ exchange ∈ heard, exchange.IsMild) ∧ units.length = 3 ∧
      (events heard).countP (·.isRetried) = 1 ∧
      ∃ pursuits, Accounted harvester heard units pursuits ∧
        (∀ pursuit ∈ pursuits, pursuit.AdmittedOnce) ∧
        Totals harvester (events heard) units (pursuits.map (·.tries.length)).sum := by
  intro late moment harvester job steps heard units
  let between := (Step.perform World.host 9 harvester
    (.calls [.harvest "http://a/" "li" .null {}, .harvestCustom "http://b/" (.text "f") {}])
    moment).1
  let opened := between.perform World.host 9 (Batch.opening 1 2)
  let settled := Batch.runChunks World.host 9 (harvester.batchSetup true) 0 1
    harvester.jobOperation [[job]] opened.1
  have counts : opened.2.toOption = some 0 := by decide +kernel
  have accepted : batchArguments (.list [job.toValue]) (.int 2) = .ok ([job], 2) :=
    batchArguments_of_compiles job (by decide) (by decide +kernel)
  have ends : (settled.2.toOption.all fun outcomes =>
      (settled.1.runAll World.host 9 (fun _ => false)
        [(Batch.closing (harvester.batchSetup true) outcomes).run]).2.length == 1) = true := by
    decide +kernel
  have finishes : Session.Finishes World.host 9 harvester steps moment := by
    refine ⟨?_, ?_, trivial⟩
    · show (_ : List _).length = 2
      decide +kernel
    · rintro ⟨jobs, size⟩ checked
      obtain ⟨rfl, rfl⟩ := Prod.mk.inj (Except.ok.inj (accepted.symm.trans checked))
      refine ⟨?_, fun count same => ⟨⟨?_, trivial⟩, fun outcomes ran => ?_⟩⟩
      · show (_ : List _).length = 1
        decide +kernel
      · rw [show opened.2 = .ok count from same] at counts
        obtain rfl : count = 0 := Option.some.inj counts
        show (_ : List _).length = 1
        decide +kernel
      · rw [show opened.2 = .ok count from same] at counts
        obtain rfl : count = 0 := Option.some.inj counts
        rw [show settled.2 = .ok outcomes from ran] at ends
        exact beq_iff_eq.mp ends
  have seen : (∀ exchange ∈ heard, exchange.IsMild) ∧ (events heard).countP (·.isRetried) = 1 := by
    decide +kernel
  have three : units.length = 3 := by decide +kernel
  obtain ⟨mild, once⟩ := seen
  exact ⟨finishes, mild, three, once,
    session_accounts World.host 9 harvester steps (show moment.strays = [] from rfl) finishes mild⟩

end Totals

end Harvester

end WebHarvest
