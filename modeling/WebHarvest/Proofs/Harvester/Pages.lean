import WebHarvest.Proofs.Browser.Holders
import WebHarvest.Proofs.Harvester.Accounts

/-!
# Pages of a harvester

An attempt has a page of its own and closes it whatever happens. So a call holds a page only while
it is in flight, a batch holds no more pages than it runs jobs together, and nothing is open between
two steps of a session. A batch that ends because a job of it raises leaves the others to
themselves, and with them the pages that they hold.
-/

set_option autoImplicit false

namespace WebHarvest

open Browser (Layer PageId numberOf)

namespace Retry

/-- However many attempts there are, each of them cleans up after itself. -/
theorem execute_tidy {α : Type} {controller : Controller} {policy : RetryPolicy} {context : Context}
    {operation : Action α} (tidy : operation.Tidy) :
    (execute controller operation policy context).Tidy :=
  execute_composes Action.tidy_composes
    (fun _ _ own => Action.tidy_of_asks (own.mono Request.isApart_of_isRetry)) tidy

end Retry

namespace Harvester

variable {harvester : Harvester}

theorem extractOnce_tidy (layer : Layer) (url selector : String) (schema : CompiledSchema Value)
    (options : HarvestOptions) : (extractOnce layer url selector schema options).Tidy := by
  rw [extractOnce_eq]
  refine Action.tidy_bind (Action.tidy_of_asks (Action.asks_query (by rintro _ ⟨⟩))) fun started =>
    Action.tidy_bind (Layer.withPage_tidy fun page =>
      (Goal.records selector schema).onPage_asks layer page url options) fun records => ?_
  exact Action.tidy_of_asks
    ((announce_asks url selector schema started records).mono fun _ own => own.2)

theorem Goal.attempt_tidy (goal : Goal) (layer : Layer) (url : String)
    (options : HarvestOptions) : (goal.attempt layer url options).Tidy := by
  cases goal with
  | records selector schema => exact extractOnce_tidy layer url selector schema options
  | result source =>
      exact Layer.withPage_tidy fun page => (Goal.result source).onPage_asks layer page url options
  | image shot =>
      exact Layer.withPage_tidy fun page => (Goal.image shot).onPage_asks layer page url options

theorem Work.action_tidy (work : Work) : (work.action harvester).Tidy := by
  have passes : (acquire work.url).Tidy :=
    Action.tidy_of_asks ((acquire_asks work.url).mono Request.isApart_of_isSlot)
  exact Action.tidy_bind passes fun _ => Retry.execute_tidy (work.goal.attempt_tidy _ _ _)

theorem Errand.action_tidy (errand : Errand) : (errand.action harvester).Tidy := by
  rw [Errand.action_eq]
  exact Action.tidy_bind (Action.tidy_of_asks (Action.asks_settle _)) fun work => work.action_tidy

theorem jobOperation_tidy (job : BatchJob) : (harvester.jobOperation job).Tidy :=
  Action.tidy_bind (Action.tidy_of_asks (Action.asks_settle _)) fun schema =>
    extractOnce_tidy _ _ _ schema _

end Harvester

namespace Batch

variable {setup : Setup} {operation : BatchJob → Action Value}

theorem settle_tidy (tidy : ∀ job, (operation job).Tidy) (count total : Nat) (job : BatchJob) :
    (settle setup count total operation job).run.Tidy none := by
  have works : (work setup operation job).Tidy := by
    unfold work
    split
    · exact Action.tidy_bind (Action.tidy_of_asks
        ((acquire_asks job.url).mono Request.isApart_of_isSlot)) fun _ =>
          Retry.execute_tidy (tidy job)
    · exact Retry.execute_tidy (tidy job)
  rw [settle_run]
  refine .asks (Or.inl (by rintro _ ⟨⟩)) fun started => works.bind fun result => ?_
  refine Program.Tidy.bind ?_ fun ended => ?_
  · exact Action.tidy_of_asks ((wrapUp_asks job started result).mono Request.isApart_of_isAside)
  · exact Program.Asks.tidy ((settled_asks count total ended).mono Request.isApart_of_isAside)

theorem programsOf_tidy (tidy : ∀ job, (operation job).Tidy) (count total : Nat)
    (chunk : List BatchJob) :
    ∀ program ∈ programsOf setup count total operation chunk, program.Tidy none := by
  intro program member
  obtain ⟨job, -, rfl⟩ := List.mem_map.mp member
  exact settle_tidy tidy count total job

theorem single_tidy {α : Type} {action : Action α} (asks : action.Asks (·.isAside = true)) :
    ∀ program ∈ [action.run], program.Tidy none :=
  List.forall_mem_singleton.mpr
    (Action.tidy_of_asks (asks.mono Request.isApart_of_isAside))

theorem length_of_mem_chunks {α : Type} {size : Nat} {items chunk : List α}
    (member : chunk ∈ chunks size items) : chunk.length ≤ size := by
  unfold chunks at member
  generalize items.length = bound at member
  induction bound generalizing items with
  | zero => cases member
  | succ bound ih =>
      cases items with
      | nil => cases member
      | cons item rest =>
          rcases List.mem_cons.mp member with rfl | later
          · exact List.length_take_le _ _
          · exact ih later

variable {σ : Type}

/-- What is seen of the chunks of a batch, and what is seen next, unless jobs are left behind. -/
def chunkSights (host : Host σ) (wakeups limit : Nat) (setup : Setup) (count total : Nat)
    (operation : BatchJob → Action Value)
    (next : Except Failure (List BatchOutcome) → Moment σ → List Sight) :
    List (List BatchJob) → Moment σ → List Sight
  | [], moment => next (.ok []) moment
  | chunk :: rest, moment =>
      moment.sights host wakeups limit stops (programsOf setup count total operation chunk)
        fun after finished =>
          match gather chunk.length finished with
          | .error failure => next (.error failure) after
          | .ok outcomes =>
              chunkSights host wakeups limit setup count total operation
                (fun others => next (others.map (outcomes ++ ·))) rest after

/-- What is seen of a batch, and what is seen next, unless jobs are left behind. -/
def sights (host : Host σ) (wakeups : Nat) (setup : Setup) (jobs : List BatchJob)
    (concurrency : Nat) (operation : BatchJob → Action Value) (next : Moment σ → List Sight)
    (moment : Moment σ) : List Sight :=
  let begins := opening jobs.length concurrency
  moment.sights host wakeups concurrency (fun _ => false) [begins.run] fun after _ =>
    match (moment.perform host wakeups begins).2 with
    | .error _ => next after
    | .ok count =>
        chunkSights host wakeups concurrency setup count jobs.length operation
          (fun result after => match result with
            | .error _ => next after
            | .ok outcomes =>
                after.sights host wakeups concurrency (fun _ => false)
                  [(closing setup outcomes).run] fun after _ => next after)
          (chunks concurrency jobs) after

/-- The wake-ups suffice for the jobs of each chunk to end, or for one of them to end the batch. -/
def ChunksSettle (host : Host σ) (wakeups : Nat) (setup : Setup) (count total : Nat)
    (operation : BatchJob → Action Value) : List (List BatchJob) → Moment σ → Prop
  | [], _ => True
  | chunk :: rest, moment =>
      let programs := programsOf setup count total operation chunk
      let ran := moment.runAll host wakeups stops programs
      (moment.Finishes host wakeups stops programs ∨
          (ran.2.any fun (_, result) => stops result) = true) ∧
        ∀ outcomes, gather chunk.length ran.2 = .ok outcomes →
          ChunksSettle host wakeups setup count total operation rest ran.1

/-- The wake-ups suffice for a batch to return or to raise. -/
def Settles (host : Host σ) (wakeups : Nat) (setup : Setup) (jobs : List BatchJob)
    (concurrency : Nat) (operation : BatchJob → Action Value) (moment : Moment σ) : Prop :=
  let begins := opening jobs.length concurrency
  let groups := chunks concurrency jobs
  let opened := moment.perform host wakeups begins
  moment.Finishes host wakeups (fun _ => false) [begins.run] ∧
    ∀ count, opened.2 = .ok count →
      ChunksSettle host wakeups setup count jobs.length operation groups opened.1 ∧
        ∀ outcomes,
          (runChunks host wakeups setup count jobs.length operation groups opened.1).2 =
              .ok outcomes →
            (runChunks host wakeups setup count jobs.length operation groups opened.1).1.Finishes
              host wakeups (fun _ => false) [(closing setup outcomes).run]

section Sights

variable {host : Host σ} {wakeups limit count total : Nat} {groups : List (List BatchJob)}
variable {moment : Moment σ} {earlier : List Exchange}

theorem unstopped_of_gather {finished : List (Nat × Except Failure BatchOutcome)} {number : Nat}
    {outcomes : List BatchOutcome} (gathered : gather number finished = .ok outcomes) :
    (finished.any fun (_, result) => stops result) = false := by
  unfold gather at gathered
  split at gathered
  · cases gathered
  next nobody =>
    rw [List.any_eq_false]
    rintro ⟨task, result⟩ member
    have fine := List.findSome?_eq_none_iff.mp nobody _ member
    cases result with
    | ok outcome => exact Bool.false_ne_true
    | error failure => cases fine

theorem ok_of_map {α β : Type} {change : α → β} {outcome : Except Failure α} {result : β}
    (mapped : outcome.map change = .ok result) : ∃ value, outcome = .ok value := by
  cases outcome with
  | ok value => exact ⟨value, rfl⟩
  | error failure => cases mapped

/-- What a batch does before its first chunk and after its last one leaves no page open. -/
theorem cleared_aside {α : Type} {action : Action α} (asks : action.Asks (·.isAside = true))
    (alone : moment.strays = []) (cleared : Cleared earlier)
    (finishes : moment.Finishes host wakeups (fun _ => false) [action.run]) :
    (moment.perform host wakeups action).1.strays = [] ∧
      Cleared (earlier ++ heard (moment.watch host wakeups (fun _ => false) [action.run]).log) := by
  have calm := Moment.alone_of_finishes alone finishes
  exact ⟨calm, (Moment.runAll_leaves (single_tidy asks) (Nat.le_refl 1) cleared alone).2 calm⟩

section Chunks

variable {chunk : List BatchJob} (groups)

theorem runChunks_of_error {failure : Failure}
    (gathered : gather chunk.length (moment.runAll host wakeups stops
      (programsOf setup count total operation chunk)).2 = .error failure) :
    runChunks host wakeups setup count total operation (chunk :: groups) moment =
      ((moment.runAll host wakeups stops (programsOf setup count total operation chunk)).1,
        .error failure) := by
  unfold programsOf at gathered
  simp only [runChunks, gathered]
  rfl

theorem runChunks_of_ok {outcomes : List BatchOutcome}
    (gathered : gather chunk.length (moment.runAll host wakeups stops
      (programsOf setup count total operation chunk)).2 = .ok outcomes) :
    runChunks host wakeups setup count total operation (chunk :: groups) moment =
      let rest := runChunks host wakeups setup count total operation groups
        (moment.runAll host wakeups stops (programsOf setup count total operation chunk)).1
      (rest.1, rest.2.map (outcomes ++ ·)) := by
  unfold programsOf at gathered
  simp only [runChunks, gathered]
  rfl

end Chunks

section Tidiness

variable (tidy : ∀ job, (operation job).Tidy)

include tidy

theorem chunks_orderly (fits : ∀ chunk ∈ groups, chunk.length ≤ limit)
    {next : Except Failure (List BatchOutcome) → Moment σ → List Sight}
    (alone : moment.strays = []) (cleared : Cleared earlier)
    (rest : ∀ result after more, after.strays = [] → Cleared more →
      Orderly more (next result after)) :
    Orderly earlier
      (chunkSights host wakeups limit setup count total operation next groups moment) := by
  induction groups generalizing next earlier moment with
  | nil => exact rest _ _ _ alone cleared
  | cons chunk groups ih =>
      obtain ⟨first, others⟩ := List.forall_mem_cons.mp fits
      refine Moment.sights_orderly (programsOf_tidy tidy count total chunk)
        (Nat.le_trans (Nat.le_of_eq (List.length_map _)) first) cleared alone ?_
      intro after finished more ran calm clean
      cases gather chunk.length finished with
      | error failure => exact rest _ _ _ calm clean
      | ok outcomes =>
          exact ih others calm clean fun result last more => rest _ last more

theorem sights_orderly {jobs : List BatchJob} {concurrency : Nat} (positive : 1 ≤ concurrency)
    {next : Moment σ → List Sight} (alone : moment.strays = []) (cleared : Cleared earlier)
    (rest : ∀ after more, after.strays = [] → Cleared more → Orderly more (next after)) :
    Orderly earlier (sights host wakeups setup jobs concurrency operation next moment) := by
  unfold sights
  refine Moment.sights_orderly (single_tidy (opening_asks jobs.length concurrency)) positive cleared
    alone fun after _ more ran calm clean => ?_
  cases (moment.perform host wakeups (opening jobs.length concurrency)).2 with
  | error failure => exact rest after more calm clean
  | ok count =>
      refine chunks_orderly tidy (fun chunk => length_of_mem_chunks) calm clean ?_
      intro result last more still clear
      cases result with
      | error failure => exact rest last more still clear
      | ok outcomes =>
          exact Moment.sights_orderly (single_tidy (closing_asks outcomes)) positive clear still
            fun final _ more _ => rest final more

/-- The chunks end with nobody left behind, and then comes what is seen next, or they end the
batch. -/
theorem chunks_end (fits : ∀ chunk ∈ groups, chunk.length ≤ limit) (alone : moment.strays = [])
    (cleared : Cleared earlier)
    (settles : ChunksSettle host wakeups setup count total operation groups moment) :
    let ran := runChunks host wakeups setup count total operation groups moment
    ∃ seen, (∀ next, chunkSights host wakeups limit setup count total operation next groups moment =
        seen ++ if ran.1.strays.isEmpty then next ran.2 ran.1 else []) ∧
      Leaves (earlier ++ heardIn seen) ran.1 ∧
      ∀ outcomes, ran.2 = .ok outcomes → ran.1.strays = [] := by
  induction groups generalizing earlier moment with
  | nil =>
      refine ⟨[], fun next => ?_, ?_, fun _ _ => alone⟩
      · simp only [chunkSights, runChunks, alone, List.isEmpty_nil, if_true, List.nil_append]
      · rw [heardIn, List.flatMap_nil, List.append_nil]
        exact cleared.leaves moment
  | cons chunk groups ih =>
      obtain ⟨small, others⟩ := List.forall_mem_cons.mp fits
      let programs := programsOf setup count total operation chunk
      let sight : Sight := ⟨limit, (moment.watch host wakeups stops programs).log⟩
      have leaves : Leaves (earlier ++ heard sight.log)
          (moment.runAll host wakeups stops programs).1 :=
        Moment.runAll_leaves (programsOf_tidy tidy count total chunk)
          (Nat.le_trans (Nat.le_of_eq (List.length_map _)) small) cleared alone
      obtain ⟨ends, goesOn⟩ := settles
      cases gathered : gather chunk.length (moment.runAll host wakeups stops programs).2 with
      | error failure =>
          have ran := runChunks_of_error groups gathered
          refine ⟨[sight], fun next => ?_, ?_, fun outcomes returned => ?_⟩
          · simp only [chunkSights, Moment.sights, ran, List.singleton_append]
            rw [gathered]
          · rwa [ran, heardIn, List.flatMap_singleton]
          · rw [ran] at returned
            cases returned
      | ok outcomes =>
          have calm : (moment.runAll host wakeups stops programs).1.strays = [] := by
            rcases ends with finishes | stopped
            · exact Moment.alone_of_finishes alone finishes
            · rw [unstopped_of_gather gathered] at stopped
              cases stopped
          have ran := runChunks_of_ok groups gathered
          obtain ⟨seen, shown, left, returned⟩ :=
            ih others calm (leaves.2 calm) (goesOn outcomes gathered)
          refine ⟨sight :: seen, fun next => ?_, ?_, fun all ended => ?_⟩
          · simp only [chunkSights, Moment.sights, ran, List.cons_append]
            rw [gathered, if_pos (List.isEmpty_iff.mpr calm)]
            exact congrArg (sight :: ·) (shown _)
          · rwa [ran, heardIn, List.flatMap_cons, ← List.append_assoc]
          · rw [ran] at ended ⊢
            obtain ⟨rest, succeeds⟩ := ok_of_map ended
            exact returned rest succeeds

/-- A batch that returns leaves nobody behind. When it raises, what is open is held by jobs that are
left behind. -/
theorem run_end {jobs : List BatchJob} {concurrency : Nat} (alone : moment.strays = [])
    (cleared : Cleared earlier)
    (settles : Settles host wakeups setup jobs concurrency operation moment) :
    let ran := run host wakeups setup jobs concurrency operation moment
    ∃ seen, (∀ next, sights host wakeups setup jobs concurrency operation next moment =
        seen ++ if ran.1.strays.isEmpty then next ran.1 else []) ∧
      Leaves (earlier ++ heardIn seen) ran.1 ∧
      ∀ outcomes, ran.2 = .ok outcomes → ran.1.strays = [] := by
  obtain ⟨begins, goesOn⟩ := settles
  let first : Sight := ⟨concurrency, (moment.watch host wakeups (fun _ => false)
    [(opening jobs.length concurrency).run]).log⟩
  obtain ⟨calm, clean⟩ := cleared_aside (opening_asks jobs.length concurrency) alone cleared begins
  have begun (next : Moment σ → List (Nat × Except Failure Nat) → List Sight) :
      moment.sights host wakeups concurrency (fun _ => false)
        [(opening jobs.length concurrency).run] next =
        first :: next (moment.perform host wakeups (opening jobs.length concurrency)).1
          (moment.runAll host wakeups (fun _ => false)
            [(opening jobs.length concurrency).run]).2 :=
    congrArg (first :: ·) (if_pos (List.isEmpty_iff.mpr calm))
  rcases opening : moment.perform host wakeups (opening jobs.length concurrency) with
    ⟨opened, reply⟩
  rw [opening] at calm goesOn begun
  simp only [run, sights, begun, opening]
  cases reply with
  | error failure =>
      refine ⟨[first], fun next => ?_, ?_, fun outcomes returned => by cases returned⟩
      · rw [if_pos (List.isEmpty_iff.mpr calm), List.singleton_append]
      · rw [heardIn, List.flatMap_singleton]
        exact clean.leaves opened
  | ok count =>
      obtain ⟨settles, ends⟩ := goesOn count rfl
      obtain ⟨seen, shown, left, returned⟩ := chunks_end tidy
        (fun chunk => length_of_mem_chunks) calm clean settles
      simp only [shown]
      rcases settled : runChunks host wakeups setup count jobs.length operation
        (chunks concurrency jobs) opened with ⟨after, result⟩
      rw [settled] at left returned ends
      cases result with
      | error failure =>
          refine ⟨first :: seen, fun next => rfl, ?_, fun outcomes raised => by cases raised⟩
          rwa [heardIn, List.flatMap_cons, ← List.append_assoc]
      | ok outcomes =>
          have quiet := returned outcomes rfl
          let last : Sight := ⟨concurrency, (after.watch host wakeups (fun _ => false)
            [(closing setup outcomes).run]).log⟩
          obtain ⟨still, clear⟩ :=
            cleared_aside (closing_asks outcomes) quiet (left.2 quiet) (ends outcomes rfl)
          refine ⟨first :: (seen ++ [last]), fun next => ?_, ?_, fun _ _ => still⟩
          · rw [if_pos (List.isEmpty_iff.mpr quiet), List.cons_append, List.append_assoc]
            rfl
          · have whole : earlier ++ heardIn (first :: (seen ++ [last])) =
                earlier ++ heard first.log ++ heardIn seen ++ heard last.log := by
              simp only [heardIn, List.flatMap_cons, List.flatMap_append, List.flatMap_nil,
                List.append_nil, List.append_assoc]
            rw [whole]
            exact clear.leaves _

end Tidiness

end Sights

end Batch

namespace Harvester

/-- What an attempt does with pages: it opens one at most, closes whatever it has opened, calls a
page only between its opening and its closing, and closes it with the last call on it. -/
structure Tended (trace : List Exchange) : Prop where
  single : (pagesOpened trace).length ≤ 1
  closed : pagesClosed trace = pagesOpened trace
  used : CallsWhileOpen trace
  last : ∀ page ∈ pagesOpened trace, ClosedLast page trace

section Attempts

variable {harvester : Harvester} {trace : List Exchange}

theorem pagesOpened_of_keeps (held : Option PageId)
    (keeps : ∀ exchange ∈ trace, exchange.request.Keeps held) : pagesOpened trace = [] :=
  List.filterMap_eq_nil_iff.mpr fun exchange member =>
    ((keeps exchange member).exchange exchange.reply).1

theorem visited_single {layer : Layer} {body : PageId → Action Value}
    {outcome : Except Failure Value} (asks : ∀ page, (body page).Asks (Request.OnPage page))
    (visited : Browser.Visited layer body trace outcome) : (pagesOpened trace).length ≤ 1 := by
  cases visited with
  | unstarted => exact Nat.zero_le 1
  | unopened => exact Nat.zero_le 1
  | @opened _ page inside _ ran closed =>
      have nothing : pagesOpened inside = [] := pagesOpened_of_keeps (some _) fun exchange member =>
        Or.inr ⟨_, rfl, (asks (numberOf page)).request_mem ran exchange member⟩
      rw [pagesOpened_cons, pagesOpened_append, nothing]
      exact Nat.le_refl 1

theorem attempt_single {work : Work} {outcome : Except Failure Value}
    (run : (work.attempt harvester).Runs trace outcome) : (pagesOpened trace).length ≤ 1 := by
  have single {trace : List Exchange} {outcome : Except Failure Value}
      (visits : work.Visits harvester trace outcome) : (pagesOpened trace).length ≤ 1 :=
    visited_single
      (fun page => work.goal.onPage_asks harvester.layer page work.url work.options) visits
  cases Work.attempt_attempted run with
  | plain _ visits => exact single visits
  | failed _ visits =>
      rw [pagesOpened_cons]
      exact single visits
  | @announced selector schema began _ after records _ _ visits tells =>
      have nothing : pagesOpened after = [] := pagesOpened_of_keeps none fun exchange member =>
        Or.inl ((announce_asks work.url selector schema began records).request_mem tells exchange
          member).2
      rw [pagesOpened_cons, pagesOpened_append, nothing, List.append_nil]
      exact single visits

theorem attempt_tended {work : Work} {outcome : Except Failure Value}
    (run : (work.attempt harvester).Runs trace outcome) : Tended trace := by
  have tidy : (work.attempt harvester).Tidy := work.goal.attempt_tidy _ _ _
  obtain ⟨after, left, handles⟩ := Program.Tidy.handles tidy (Program.reaches_done.mpr run)
  cases left
  have single := attempt_single run
  have closed : pagesOpened trace = pagesClosed trace := by
    simpa using handles.balance
  have distinct : (pagesOpened trace).Nodup := by
    rcases Nat.le_one_iff_eq_zero_or_eq_one.mp single with none | one
    · rw [List.length_eq_zero_iff.mp none]
      exact List.nodup_nil
    · obtain ⟨page, only⟩ := List.length_eq_one_iff.mp one
      rw [only]
      exact List.nodup_singleton page
  have used := handles.callsWhileOpen distinct
  exact ⟨single, closed.symm, used, fun page opened => used.closedLast (closed ▸ opened)⟩

end Attempts

namespace Step

variable {σ : Type}

/-- What is seen of a step, and what is seen next, unless somebody is left behind. -/
def sights (host : Host σ) (wakeups : Nat) (harvester : Harvester) (next : Moment σ → List Sight) :
    Step → Moment σ → List Sight
  | calls errands, moment =>
      moment.sights host wakeups errands.length (fun _ => false) (programs harvester errands)
        fun after _ => next after
  | batch jobs concurrency progress, moment =>
      match batchArguments jobs concurrency with
      | .error _ => next moment
      | .ok (jobs, concurrency) =>
          Batch.sights host wakeups (harvester.batchSetup progress) jobs concurrency
            harvester.jobOperation next moment

/-- The wake-ups suffice for what is done in the step to return or to raise. -/
def Settles (host : Host σ) (wakeups : Nat) (harvester : Harvester) : Step → Moment σ → Prop
  | calls errands, moment =>
      moment.Finishes host wakeups (fun _ => false) (programs harvester errands)
  | batch jobs concurrency progress, moment =>
      ∀ checked, batchArguments jobs concurrency = .ok checked →
        Batch.Settles host wakeups (harvester.batchSetup progress) checked.1 checked.2
          harvester.jobOperation moment

/-- The step is no batch that raises. -/
def Returns (host : Host σ) (wakeups : Nat) (harvester : Harvester) : Step → Moment σ → Prop
  | calls _, _ => True
  | batch jobs concurrency progress, moment =>
      (harvester.harvestBatch host wakeups jobs concurrency progress moment).2.isOk = true

end Step

/-- What is seen of a session, as long as nobody is left behind. -/
def Session.sights {σ : Type} (host : Host σ) (wakeups : Nat) (harvester : Harvester) :
    List Step → Moment σ → List Sight
  | [], _ => []
  | step :: rest, moment =>
      step.sights host wakeups harvester (Session.sights host wakeups harvester rest) moment

section Sessions

variable {σ : Type} {host : Host σ} {wakeups : Nat} {harvester : Harvester} {moment : Moment σ}
variable {earlier : List Exchange}

theorem programs_tidy (errands : List Errand) :
    ∀ program ∈ Step.programs harvester errands, program.Tidy none := by
  intro program member
  obtain ⟨errand, -, rfl⟩ := List.mem_map.mp member
  exact errand.action_tidy

theorem step_orderly (step : Step) {next : Moment σ → List Sight} (alone : moment.strays = [])
    (cleared : Cleared earlier)
    (rest : ∀ after more, after.strays = [] → Cleared more → Orderly more (next after)) :
    Orderly earlier (step.sights host wakeups harvester next moment) := by
  cases step with
  | calls errands =>
      exact Moment.sights_orderly (programs_tidy errands) (Nat.le_of_eq (List.length_map _)) cleared
        alone fun after _ more _ => rest after more
  | batch jobs concurrency progress =>
      cases accepted : batchArguments jobs concurrency with
      | error failure =>
          simp only [Step.sights, accepted]
          exact rest moment earlier alone cleared
      | ok checked =>
          simp only [Step.sights, accepted]
          exact Batch.sights_orderly jobOperation_tidy (compiled_of_batchArguments accepted).1 alone
            cleared rest

/-- Nothing is open between two steps, so one step after the other keeps the pages in order. -/
theorem session_orderly (steps : List Step) (alone : moment.strays = [])
    (cleared : Cleared earlier) :
    Orderly earlier (Session.sights host wakeups harvester steps moment) := by
  induction steps generalizing earlier moment with
  | nil => exact orderly_nil earlier
  | cons step rest ih =>
      exact step_orderly step alone cleared fun after more calm clean => ih calm clean

theorem step_end (step : Step) (alone : moment.strays = []) (cleared : Cleared earlier)
    (settles : step.Settles host wakeups harvester moment) :
    let after := (step.perform host wakeups harvester moment).1
    ∃ seen, (∀ next, step.sights host wakeups harvester next moment =
        seen ++ if after.strays.isEmpty then next after else []) ∧
      Leaves (earlier ++ heardIn seen) after ∧
      (step.Returns host wakeups harvester moment → after.strays = []) := by
  cases step with
  | calls errands =>
      have calm := Moment.alone_of_finishes alone settles
      have leaves : Leaves _ (moment.runAll host wakeups (fun _ => false)
          (Step.programs harvester errands)).1 :=
        Moment.runAll_leaves (programs_tidy errands) (Nat.le_of_eq (List.length_map _)) cleared
          alone
      refine ⟨[⟨errands.length, (moment.watch host wakeups (fun _ => false)
        (Step.programs harvester errands)).log⟩], fun next => rfl, ?_, fun _ => calm⟩
      rw [heardIn, List.flatMap_singleton]
      exact leaves
  | batch jobs concurrency progress =>
      cases accepted : batchArguments jobs concurrency with
      | error failure =>
          simp only [Step.sights, Step.perform, harvestBatch, accepted]
          refine ⟨[], fun next => ?_, ?_, fun _ => alone⟩
          · rw [if_pos (List.isEmpty_iff.mpr alone), List.nil_append]
          · rw [heardIn, List.flatMap_nil, List.append_nil]
            exact cleared.leaves moment
      | ok checked =>
          obtain ⟨seen, shown, left, returned⟩ :=
            Batch.run_end jobOperation_tidy alone cleared (settles checked accepted)
          simp only [Step.sights, Step.perform, Step.Returns, harvestBatch, accepted]
          refine ⟨seen, shown, left, fun returns => ?_⟩
          cases result : (Batch.run host wakeups (harvester.batchSetup progress) checked.1 checked.2
              harvester.jobOperation moment).2 with
          | ok outcomes => exact returned outcomes result
          | error failure =>
              rw [result] at returns
              cases returns

/-- Every attempt has one page at most, which it closes with the last call on it, however it ends.
At every moment of a session, no more pages are open than calls are in flight, and no more than the
concurrency of a batch, and only pages that are open are called. When a step has returned, every
page of it has been closed, by the last call on it. When a batch raises, its other jobs are left
behind, and what is open is held by them, one page by each at most. -/
theorem session_pages (host : Host σ) (wakeups : Nat) (harvester : Harvester)
    (alone : moment.strays = []) :
    (∀ (work : Work) trace outcome, (work.attempt harvester).Runs trace outcome → Tended trace) ∧
    (∀ steps before sight after past,
      Session.sights host wakeups harvester steps moment = before ++ sight :: after →
      past <+: sight.log →
      let trace := heardIn before ++ heard past
      (∀ entry ∈ past, entry.task < sight.limit) ∧ Standing sight.limit (heardIn before) past ∧
        (pagesOpened trace).length ≤
          (pagesClosed trace).length + (inFlight sight.limit past).length ∧
        (inFlight sight.limit past).length ≤ sight.limit) ∧
    ∀ step : Step, step.Settles host wakeups harvester moment →
      let after := (step.perform host wakeups harvester moment).1
      let trace := heardIn (step.sights host wakeups harvester (fun _ => []) moment)
      (pagesOpened trace).length ≤ (pagesClosed trace).length + after.strays.length ∧
        (step.Returns host wakeups harvester moment → after.strays = []) ∧
        (after.strays = [] → Cleared trace ∧
          ((pagesOpened trace).Nodup → ∀ page ∈ pagesOpened trace, ClosedLast page trace)) := by
  refine ⟨fun work trace outcome run => attempt_tended run, ?_, fun step settles => ?_⟩
  · intro steps before sight after past split isPrefix
    obtain ⟨inside, standing⟩ :=
      session_orderly steps alone cleared_nil before sight after past split isPrefix
    rw [List.nil_append] at standing
    exact ⟨inside, standing, standing.open_le, inFlight_length_le sight.limit past⟩
  · obtain ⟨seen, shown, ⟨bound, clears⟩, returned⟩ := step_end step alone cleared_nil settles
    intro after trace
    have heards : trace = heardIn seen := by
      show heardIn (step.sights host wakeups harvester (fun _ => []) moment) = heardIn seen
      rw [shown, ite_self, List.append_nil]
    rw [heards]
    exact ⟨bound, returned, fun calm => ⟨clears calm, (clears calm).closedLast⟩⟩

open Simulation in
/-- Two calls for a target that cannot be visited the first time, and a batch of two jobs for it.
The ledger cannot be written, so the first job ends the batch while the second one is on its
way. -/
theorem session_pages_crashed :
    let crash : Turn := { outcome := some (.error (.raise .browser "closed")) }
    let slow : Turn := { delay := some 50000 }
    let moment : Moment (World Int) := .initial
      { emitter := some { source := "harvester", ledger := some "a\x00b" }
        engine := { script := [("goto", [crash, slow])] } }
    let harvester : Harvester := { held := { context := some 3 } }
    let job : BatchJob := ⟨"http://a/", "li", .null, {}⟩
    let calls : Step :=
      .calls [.harvest "http://a/" "li" .null {}, .harvestCustom "http://a/" (.text "f") {}]
    let batch : Step := .batch (.list [job.toValue, job.toValue]) (.int 2) false
    let called := heardIn (calls.sights World.host 9 harvester (fun _ => []) moment)
    let batched := heardIn (batch.sights World.host 9 harvester (fun _ => []) moment)
    let left := (batch.perform World.host 9 harvester moment).1.strays
    calls.Settles World.host 9 harvester moment ∧ pagesOpened called = [1, 2] ∧
      Cleared called ∧ (∀ page ∈ pagesOpened called, ClosedLast page called) ∧
      batch.Settles World.host 9 harvester moment ∧ pagesOpened batched = [1, 2] ∧
      pagesClosed batched = [1] ∧ left.length = 1 ∧
      (pagesOpened batched).length ≤ (pagesClosed batched).length + left.length := by
  intro crash slow moment harvester job calls batch called batched left
  let opened := moment.perform World.host 9 (Batch.opening 2 2)
  let settled := Batch.runChunks World.host 9 (harvester.batchSetup false) 0 2
    harvester.jobOperation [[job, job]] opened.1
  have pages := session_pages World.host 9 harvester (show moment.strays = [] from rfl)
  have accepts (job : BatchJob) (compiles : compileJob job.toValue = .ok ()) :
      batchArguments (.list [job.toValue, job.toValue]) (.int 2) = .ok ([job, job], 2) := by
    have checked : batchArguments (.list [job.toValue, job.toValue]) (.int 2) =
        [job.toValue, job.toValue].mapM compileJob >>= fun _ =>
          Batch.arguments (.list [job.toValue, job.toValue]) (.int 2) := rfl
    rw [checked, List.mapM_cons, List.mapM_cons, List.mapM_nil, compiles]
    rfl
  have fine : (compileJob job.toValue).isOk = true := by decide +kernel
  have compiles : compileJob job.toValue = .ok () := by
    cases compiled : compileJob job.toValue with
    | ok => rfl
    | error failure =>
        rw [compiled] at fine
        cases fine
  have accepted := accepts job compiles
  have callsEnd : calls.Settles World.host 9 harvester moment := by
    show (_ : List _).length = 2
    decide +kernel
  have batchEnds : batch.Settles World.host 9 harvester moment := by
    rintro ⟨jobs, size⟩ checked
    obtain ⟨rfl, rfl⟩ := Prod.mk.inj (Except.ok.inj (accepted.symm.trans checked))
    have counts : opened.2.toOption = some 0 := by decide +kernel
    have raises : settled.2.isOk = false := by decide +kernel
    refine ⟨?_, fun count same => ⟨⟨Or.inr ?_, ?_⟩, fun outcomes returned => ?_⟩⟩
    · show (_ : List _).length = 1
      decide +kernel
    · rw [show opened.2 = .ok count from same] at counts
      obtain rfl : count = 0 := Option.some.inj counts
      decide +kernel
    · intro outcomes gathered
      exact trivial
    · rw [show opened.2 = .ok count from same] at counts
      obtain rfl : count = 0 := Option.some.inj counts
      rw [show settled.2 = .ok outcomes from returned] at raises
      cases raises
  have seen : pagesOpened called = [1, 2] ∧ pagesOpened batched = [1, 2] ∧
      pagesClosed batched = [1] ∧ left.length = 1 := by
    decide +kernel
  obtain ⟨-, returned, clears⟩ := pages.2.2 calls callsEnd
  obtain ⟨cleared, last⟩ := clears (returned trivial)
  obtain ⟨both, bothLater, closed, one⟩ := seen
  refine ⟨callsEnd, both, cleared, last ?_, batchEnds, bothLater, closed, one,
    (pages.2.2 batch batchEnds).1⟩
  rw [both]
  decide

end Sessions

end Harvester

end WebHarvest
