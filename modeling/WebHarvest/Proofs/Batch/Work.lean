import WebHarvest.Proofs.Batch.Job
import WebHarvest.Proofs.Program.Ending

/-!
# What a job does

A job reads the clock, works, and takes the time that it has slept until then for its duration. It
settles at that very moment; then the batch is told how far it is, and nothing that the progress
callback does changes the job's outcome.
-/

set_option autoImplicit false

namespace WebHarvest

open Program (Led)

namespace Retry

variable {controller : Controller} {policy : RetryPolicy} {context : Context} {failure : Failure}

theorem report_works (named : Named context) (attempts : Nat) (started : Int) :
    (report controller failure attempts started context).Works 5 := by
  unfold report
  show Action.Works (1 + (1 + (1 + (1 + 1)))) _
  apply Action.works_bind
  · exact Action.works_query ⟨⟨"", trivial⟩, rfl⟩
  · intro duration
    apply Action.works_bind (Action.works_log _)
    intro _
    apply Action.works_when (Action.works_emit (named.extend _) rfl)
    apply Action.works_if
    exact Action.works_recover (Action.works_observe _ _) fun _ => Action.works_log _

theorem pause_works (named : Named context) (attempt : Nat) :
    (pause controller policy failure attempt context).Works 3 := by
  unfold pause
  show Action.Works (1 + (1 + 1)) _
  apply Action.works_bind (Action.works_log _)
  intro _
  exact Action.works_when (Action.works_emit (named.extend _) rfl) (Action.works_pause _)

theorem giveUp_works {α : Type} (named : Named context) (ordinary : failure.isOrdinary = true)
    (attempts : Nat) (started : Int) :
    (giveUp controller failure attempts started context : Action α).Works 5 := by
  show Action.Works (5 + 0) _
  exact Action.works_bind (report_works named attempts started) fun _ =>
    Action.works_throw ordinary

variable {α : Type} {operation : Action α} {bound more : Nat}

theorem attemptOnce_works (works : operation.Works bound) (named : Named context) (started : Int)
    (attempt : Nat) {next : Option (Unit → Action α)}
    (again : ∀ goesOn, next = some goesOn → (goesOn ()).Works more) :
    (attemptOnce controller operation policy context started attempt next).Works
      (bound + (5 + more)) := by
  unfold attemptOnce
  apply Action.works_attempt works
  intro outcome ordinary
  cases outcome with
  | ok result => exact Action.works_pure result
  | error failure =>
      have usual := ordinary failure rfl
      have gives : (giveUp controller failure (attempt + 1) started context : Action α).Works
          (5 + more) :=
        (giveUp_works named usual _ _).mono (Nat.le_add_right _ _)
      simp only [usual, Bool.not_true, Bool.false_eq_true, if_false]
      split
      next goesOn _ =>
        apply Action.Works.mono
        · exact Action.works_bind (pause_works named attempt) fun _ => again goesOn rfl
        · omega
      next => exact gives

theorem attemptFrom_works (works : operation.Works bound) (named : Named context) (started : Int)
    (attempt more : Nat) :
    (attemptFrom controller operation policy context started attempt more).Works
      ((bound + 5) * (more + 1)) := by
  induction more generalizing attempt with
  | zero =>
      have once : (attemptOnce controller operation policy context started attempt none).Works
          (bound + (5 + 0)) := attemptOnce_works works named started attempt nofun
      exact once.mono (by omega)
  | succ more ih =>
      rw [attemptFrom]
      apply Action.Works.mono
      · apply attemptOnce_works works named started attempt
        rintro _ ⟨⟩
        exact ih (attempt + 1)
      · rw [Nat.mul_succ (bound + 5) (more + 1)]
        omega

theorem execute_works (works : operation.Works bound) (named : Named context) :
    (execute controller operation policy context).Works
      (1 + (bound + 5) * (policy.maxAttempts - 1 + 1)) := by
  unfold execute
  apply Action.works_bind
  · exact Action.works_query ⟨⟨"", trivial⟩, rfl⟩
  · intro started
    exact attemptFrom_works works named started 0 _

end Retry

theorem acquire_works (target : String) :
    (acquire target).Works (RateLimit.scopesOf target).length := by
  unfold acquire
  induction RateLimit.scopesOf target with
  | nil => exact Action.works_pure ()
  | cons scope rest ih =>
      rw [List.length_cons, Nat.add_comm]
      exact Action.works_bind (Action.works_takeSlot scope target) fun _ => ih

namespace Batch

/-- What a job does between its two looks at the clock. -/
def work (setup : Setup) (operation : BatchJob → Action Value) (job : BatchJob) :
    Action Value := do
  if setup.limited then acquire job.url
  Retry.execute setup.retry (operation job) (job.options.retryPolicy setup.defaultPolicy)
    [(.text "url", .text job.url), (.text "operation", .text "harvest"),
      (.text "selector", .text job.selector)]

/-- What a job makes of the result of its work. -/
def wrapUp (job : BatchJob) (started : Int) : Except Failure Value → Action BatchOutcome
  | .ok data => do
      return { url := job.url, success := true, data, durationMs := ← Action.elapsed started }
  | .error failure => do
      if !failure.isOrdinary then throw failure
      Action.log <|
        structuredError logger .batchJobFailed failure.message true (.text job.url)
          (.text "harvest") (.record [("error_kind", .text failure.kind)])
      return {
        url := job.url, success := false, error := some failure.message,
        errorName := some failure.kind, durationMs := ← Action.elapsed started }

section Jobs

variable {setup : Setup} {operation : BatchJob → Action Value} {job : BatchJob} {bound : Nat}

theorem work_works (setup : Setup) (works : (operation job).Works bound) :
    ∃ bound, (work setup operation job).Works bound := by
  have named : Retry.Named [(.text "url", .text job.url), (.text "operation", .text "harvest"),
      (.text "selector", .text job.selector)] :=
    ⟨[("url", .text job.url), ("operation", .text "harvest"), ("selector", .text job.selector)],
      rfl⟩
  have executes := @Retry.execute_works setup.retry
    (job.options.retryPolicy setup.defaultPolicy) _ _ _ _ works named
  unfold work
  exact ⟨_, Action.works_when (acquire_works job.url) executes⟩

/-- The outcome that a result makes of a job which has taken so long. -/
def timed (job : BatchJob) (result : Except Failure Value) (micros : Int) : BatchOutcome :=
  { job.outcome result with durationMs := TimeScale.wholeMillis micros }

theorem wrapUp_ends (started : Int) {result : Except Failure Value}
    (ordinary : Action.Fails (·.isOrdinary = true) result) :
    (wrapUp job started result).run.Within Request.IsWork
      (fun ended => ∃ outcome, ended = .ok outcome) 2 := by
  cases result with
  | ok data =>
      exact .ask ⟨⟨"", trivial⟩, rfl⟩ fun _ _ _ => .done ⟨_, rfl⟩
  | error failure =>
      simp only [wrapUp, ordinary failure rfl, Bool.not_true, Bool.false_eq_true, if_false]
      exact .ask ⟨⟨"", trivial⟩, rfl⟩ fun _ _ _ =>
        .ask ⟨⟨"", trivial⟩, rfl⟩ fun _ _ _ => .done ⟨_, rfl⟩

theorem runJob_ends (setup : Setup) (works : (operation job).Works bound) :
    ∃ most, (runJob setup operation job).run.Within Request.IsWork
      (fun ended => ∃ outcome, ended = .ok outcome) most := by
  obtain ⟨most, worked⟩ := work_works setup works
  refine ⟨most + 2 + 1, .ask ⟨⟨"", trivial⟩, rfl⟩ fun _ started _ => ?_⟩
  show Program.Within _ _ _
    ((work setup operation job).attempt >>= wrapUp job started).run
  rw [Action.run_attempt_bind]
  refine Program.Within.bind (Program.Within.weaken worked (fun _ own => own) ?_)
  exact fun result ordinary => wrapUp_ends started ordinary

end Jobs

section Notices

variable {setup : Setup} {completed total : Nat}

/-- The signal that so many jobs of a batch have settled. -/
def announcement (completed total : Nat) : Request :=
  .emit .batchProgress
    [(.text "completed", .ofNat completed), (.text "total", .ofNat total)]

/-- What is logged about a progress callback that fails. -/
def complaint (completed total : Nat) (fault : Failure) : LogRecord :=
  structuredError logger .progressCallbackFailed fault.message true .null .null
    (.record [("completed", .ofNat completed), ("total", .ofNat total)])

/-- How a notification goes on when the progress callback has returned. -/
def conclude (completed total : Nat) : Except Failure Unit → Program (Except Failure Unit)
  | .ok _ => .done (.ok ())
  | .error fault =>
      if fault.isOrdinary then
        .ask (.log (complaint completed total fault)) fun _ => .done (.ok ())
      else .done (.error fault)

/-- How a notification goes on when its signal has been emitted. -/
def call (setup : Setup) (completed total : Nat) : Program (Except Failure Unit) :=
  if setup.progress then .ask (.progress completed total) (conclude completed total)
  else .done (.ok ())

def callAfter (setup : Setup) (completed total : Nat) :
    Except Failure Unit → Program (Except Failure Unit)
  | .ok _ => call setup completed total
  | .error failure => .done (.error failure)

theorem notify_run (setup : Setup) (completed total : Nat) :
    (notify setup completed total).run =
      if setup.signals then
        .ask (announcement completed total) (callAfter setup completed total)
      else call setup completed total := by
  have calls : (if setup.progress then
      (Action.progress completed total).recover Failure.isOrdinary fun fault =>
        Action.log (complaint completed total fault) else pure () : Action Unit).run =
      call setup completed total := by
    unfold call
    cases setup.progress with
    | false => rfl
    | true =>
        show Program.ask _ _ = Program.ask _ _
        congr 1
        funext reply
        cases reply with
        | ok => rfl
        | error fault =>
            show (if fault.isOrdinary = true then _ else _ : Action Unit).run = _
            rw [conclude]
            cases fault.isOrdinary with
            | true => rfl
            | false => rfl
  unfold notify
  cases setup.signals with
  | false => exact calls
  | true =>
      show Program.ask _ _ = Program.ask _ _
      congr 1
      funext reply
      cases reply with
      | ok => exact calls
      | error failure => rfl

/-- Requests of a notification. -/
def IsNotice (request : Request) : Prop :=
  request.IsServed ∧ (request.isNews = true ∨ ∃ record, request = .log record)

theorem IsNotice.atOnce {σ : Type} {host : Host σ} {gauge : Gauge σ} (keeps : host.KeepsTime gauge)
    (never : ∀ request, request.isNews = true → gauge.atOnce request) (request : Request)
    (own : IsNotice request) :
    gauge.atOnce request ∧ ∀ scope target, request ≠ .takeSlot scope target := by
  rcases own.2 with news | ⟨record, rfl⟩
  · refine ⟨never request news, ?_⟩
    rintro scope target rfl
    cases news
  · exact ⟨keeps.prompt trivial, nofun⟩

theorem conclude_ends {time : Int} {reply : Except Failure Unit}
    (sound : Request.Sound time (.progress completed total) reply) :
    (conclude completed total reply).Within IsNotice (fun ended => ended = .ok ()) 1 := by
  cases reply with
  | ok => exact .done rfl
  | error fault =>
      rw [conclude, if_pos (sound fault rfl)]
      exact .ask ⟨⟨"", trivial⟩, Or.inr ⟨_, rfl⟩⟩ fun _ _ _ => .done rfl

theorem call_ends (setup : Setup) (completed total : Nat) :
    (call setup completed total).Within IsNotice (fun ended => ended = .ok ()) 2 := by
  unfold call
  cases setup.progress with
  | false => exact .done rfl
  | true => exact .ask ⟨⟨"", trivial⟩, Or.inl rfl⟩ fun _ _ sound => conclude_ends sound

theorem notify_ends (setup : Setup) (completed total : Nat) :
    (notify setup completed total).run.Within IsNotice (fun ended => ended = .ok ()) 3 := by
  rw [notify_run]
  have calls := call_ends setup completed total
  cases setup.signals with
  | false => exact calls.mono (Nat.le_succ 2)
  | true =>
      have texts : (announcement completed total).IsServed :=
        ⟨"", [("completed", .ofNat completed), ("total", .ofNat total)], rfl⟩
      refine .ask ⟨texts, Or.inl rfl⟩ fun time reply sound => ?_
      obtain rfl : reply = .ok () := sound.1 rfl
      exact calls

theorem settle_ends {operation : BatchJob → Action Value} {job : BatchJob} {bound : Nat}
    (setup : Setup) (count total : Nat) (works : (operation job).Works bound) :
    ∃ most, (settle setup count total operation job).run.Within Request.IsServed
      (fun ended => ∃ outcome, ended = .ok outcome) most := by
  obtain ⟨most, ends⟩ := runJob_ends setup works
  refine ⟨most + 4, Program.Within.bind (ends.weaken (fun _ own => own.1) ?_)⟩
  rintro _ ⟨outcome, rfl⟩
  refine .ask ⟨"", trivial⟩ fun _ completed _ => ?_
  show Program.Within _ _ (3 + 0) (notify setup completed total >>= fun _ => pure outcome).run
  refine Program.Within.bind ((notify_ends setup completed total).weaken (fun _ own => own.1) ?_)
  rintro _ rfl
  exact .done ⟨outcome, rfl⟩

end Notices

section Deeds

variable {atOnce : Request → Prop} (prompt : ∀ {request}, request.IsPrompt → atOnce request)
variable {setup : Setup} {operation : BatchJob → Action Value} {job : BatchJob} {bound : Nat}
variable {begin time : Int} {deeds : List Deed} {ended : Except Failure BatchOutcome}

include prompt

theorem wrapUp_led {started : Int} {result : Except Failure Value}
    (ordinary : Action.Fails (·.isOrdinary = true) result)
    (led : Led atOnce time (wrapUp job started result).run deeds (.done ended)) :
    ended = .ok (timed job result (time - started)) ∧ slept deeds = 0 := by
  cases result with
  | ok data =>
      obtain ⟨_, rest, rfl, rfl, ends⟩ := led.of_prompt (prompt trivial) nofun
      obtain ⟨rfl, same⟩ := ends.of_done
      exact ⟨Program.done.inj same, rfl⟩
  | error failure =>
      simp only [wrapUp, ordinary failure rfl, Bool.not_true, Bool.false_eq_true, if_false] at led
      obtain ⟨_, _, -, rfl, logged⟩ := led.of_prompt (prompt trivial) nofun
      obtain ⟨_, rest, rfl, rfl, ends⟩ := logged.of_prompt (prompt trivial) nofun
      obtain ⟨rfl, same⟩ := ends.of_done
      exact ⟨Program.done.inj same, rfl⟩

/-- The first thing that a job does is to look at the clock, and it takes for its duration what it
has slept since then. -/
theorem runJob_led (works : (operation job).Works bound)
    (led : Led atOnce begin (runJob setup operation job).run deeds (.done ended)) :
    ∃ result rest, ended = .ok (timed job result (slept deeds)) ∧
      deeds = .asks .now :: .hears .now begin :: rest := by
  have looks : Led atOnce begin (.ask .now fun started =>
      ((work setup operation job).attempt >>= wrapUp job started).run) deeds (.done ended) := led
  obtain ⟨started, rest, looked, rfl, works'⟩ := looks.of_prompt (prompt trivial) nofun
  obtain rfl : begin = started := looked.symm
  rw [Action.run_attempt_bind] at works'
  obtain ⟨before, result, after, rfl, worked, wrapped⟩ := works'.of_bind
  obtain ⟨most, within⟩ := work_works setup works
  have ordinary : Action.Fails (·.isOrdinary = true) result := by
    cases worked.within within with
    | done holds => exact holds
  obtain ⟨rfl, still⟩ := wrapUp_led prompt ordinary wrapped
  refine ⟨result, before ++ after, ?_, rfl⟩
  have took : slept (.asks .now :: .hears .now begin :: (before ++ after)) = slept before := by
    rw [slept_cons, slept_cons, slept_append, still]
    show 0 + (0 + (slept before + 0)) = slept before
    omega
  rw [took, add_sub_cancel_left]

/-- A job settles at the moment at which its work is done; what it does then is to notify, with its
outcome at hand. -/
theorem settle_led {count total : Nat} (works : (operation job).Works bound)
    (led : Led atOnce begin (settle setup count total operation job).run deeds (.done ended)) :
    ∃ result rest worked completed notice,
      deeds = worked ++ .asks (.countSettled count) :: .hears (.countSettled count) completed ::
        notice ∧
      worked = .asks .now :: .hears .now begin :: rest ∧
      (∀ request, Deed.asks request ∈ worked → request.isBatch = false) ∧
      ended = .ok (timed job result (slept worked)) ∧ (∀ deed ∈ worked, 0 ≤ deed.span) ∧
      Led atOnce (begin + slept worked) (notify setup completed total).run notice
        (.done (.ok ())) := by
  obtain ⟨most, ends⟩ := runJob_ends setup works
  obtain ⟨worked, middle, after, rfl, first, second⟩ := led.of_bind
  obtain ⟨result, rest, rfl, looked⟩ := runJob_led prompt works first
  obtain ⟨completed, others, -, rfl, told⟩ := second.of_prompt (prompt trivial) nofun
  have tells : Led atOnce (begin + slept worked)
      ((notify setup completed total).run.bind (ExceptT.bindCont fun _ =>
        pure (timed job result (slept worked)))) others (.done ended) := told
  obtain ⟨notice, reply, nothing, rfl, notified, ends'⟩ := tells.of_bind
  obtain rfl : reply = .ok () := by
    cases notified.within (notify_ends setup completed total) with
    | done holds => exact holds
  obtain ⟨rfl, same⟩ := ends'.of_done
  rw [List.append_nil]
  exact ⟨result, rest, worked, completed, notice, rfl, looked,
    fun request asked => (first.asks ends asked).2, Program.done.inj same, first.forward,
    notified⟩

end Deeds

end Batch

end WebHarvest
