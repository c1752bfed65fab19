import WebHarvest.Proofs.Program.Gauge

/-!
# Programs that end within a number of requests

Such a program makes requests of a certain sort only, and comes to a good result, whatever the
replies are as long as they are sound. A program that works fails in ordinary ways only and leaves
it to its batch to say how far it is.
-/

set_option autoImplicit false

namespace WebHarvest

namespace Program

variable {α β : Type} {allowed other : Request → Prop} {good better : α → Prop}

inductive Within (allowed : Request → Prop) (good : α → Prop) : Nat → Program α → Prop where
  | done {bound : Nat} {result : α} (holds : good result) :
      Within allowed good bound (.done result)
  | ask {bound : Nat} {request : Request} {next : request.Reply → Program α}
      (own : allowed request)
      (goesOn : ∀ time reply, request.Sound time reply →
        Within allowed good bound (next reply)) :
      Within allowed good (bound + 1) (.ask request next)

namespace Within

variable {bound more : Nat} {program : Program α}

theorem mono (within : Within allowed good bound program) (enough : bound ≤ more) :
    Within allowed good more program := by
  induction within generalizing more with
  | done holds => exact .done holds
  | ask own _ ih =>
      obtain ⟨rest, rfl⟩ := Nat.exists_eq_add_of_lt enough
      exact .ask own fun time reply sound => ih time reply sound (by omega)

theorem weaken (within : Within allowed better bound program)
    (wider : ∀ request, allowed request → other request)
    (weaker : ∀ result, better result → good result) : Within other good bound program := by
  induction within with
  | done holds => exact .done (weaker _ holds)
  | ask own _ ih => exact .ask (wider _ own) ih

theorem bind {next : α → Program β} {final : β → Prop}
    (within : Within allowed (fun result => Within allowed final more (next result)) bound
      program) :
    Within allowed final (bound + more) (program.bind next) := by
  induction within with
  | done holds => exact holds.mono (Nat.le_add_left _ _)
  | @ask bound _ _ own _ ih =>
      rw [Nat.add_right_comm]
      exact .ask own ih

end Within

end Program

/-- Requests of a job. -/
def Request.IsWork (request : Request) : Prop := request.IsServed ∧ request.isBatch = false

namespace Action

variable {α β : Type} {bound more : Nat}

def Fails (acceptable : Failure → Prop) (outcome : Except Failure α) : Prop :=
  ∀ failure, outcome = .error failure → acceptable failure

/-- The action makes at most `bound` requests, those of a job, and fails in ordinary ways only. -/
def Works (bound : Nat) (action : Action α) : Prop :=
  action.run.Within Request.IsWork (Fails (·.isOrdinary = true)) bound

theorem works_pure (result : α) : (pure result : Action α).Works bound :=
  .done nofun

theorem works_throw {failure : Failure} (ordinary : failure.isOrdinary = true) :
    (throw failure : Action α).Works bound :=
  .done fun _ same => Except.error.inj same ▸ ordinary

theorem Works.mono {action : Action α} (works : action.Works bound) (enough : bound ≤ more) :
    action.Works more :=
  Program.Within.mono works enough

theorem works_bind {action : Action α} {next : α → Action β} (first : action.Works bound)
    (rest : ∀ result, (next result).Works more) : (action >>= next).Works (bound + more) := by
  have goesOn : action.run.Within Request.IsWork (fun outcome =>
      Program.Within Request.IsWork (Fails (·.isOrdinary = true)) more
        (ExceptT.bindCont next outcome)) bound := by
    refine Program.Within.weaken first (fun _ own => own) fun outcome ordinary => ?_
    cases outcome with
    | ok result => exact rest result
    | error failure => exact .done fun _ same => ordinary _ (congrArg _ (Except.error.inj same))
  exact goesOn.bind

theorem works_query {request : Request} (own : request.IsWork) : (query request).Works 1 :=
  .ask own fun _ _ _ => .done nofun

theorem works_log (record : LogRecord) : (log record).Works 1 :=
  works_query ⟨⟨"", trivial⟩, rfl⟩

theorem works_pause (millis : Int) : (pause millis).Works 1 :=
  .ask ⟨⟨"", trivial⟩, rfl⟩ fun _ _ sound => .done sound

theorem works_takeSlot (scope : RateLimit.Scope) (target : String) :
    (takeSlot scope target).Works 1 :=
  .ask ⟨⟨"", trivial⟩, rfl⟩ fun _ _ sound => .done sound

theorem works_observe (failure : Failure) (details : List (Value × Value)) :
    (observe failure details).Works 1 :=
  .ask ⟨⟨"", trivial⟩, rfl⟩ fun _ _ sound => .done sound

theorem works_perform (operation : String) : (perform operation).Works 1 :=
  .ask ⟨⟨operation, rfl⟩, rfl⟩ fun _ _ sound => .done sound

theorem works_emit {kind : SignalKind} {payload : List (Value × Value)}
    (texts : ∃ entries : Record, .map payload = Value.record entries)
    (own : Request.isBatch (.emit kind payload) = false) : (emit kind payload).Works 1 :=
  .ask ⟨⟨"", texts⟩, own⟩ fun _ _ sound => .done sound.2

theorem works_if {condition : Bool} {action : Action Unit} (works : action.Works bound) :
    (if condition = true then action else pure ()).Works bound := by
  cases condition with
  | true => exact works
  | false => exact works_pure ()

theorem works_when {condition : Bool} {action : Action Unit} {next : Unit → Action β}
    (first : action.Works bound) (rest : (next ()).Works more) :
    (if condition = true then action >>= next else next ()).Works (bound + more) := by
  cases condition with
  | true => exact works_bind first fun _ => rest
  | false => exact rest.mono (Nat.le_add_left _ _)

theorem run_attempt_bind (action : Action α) (next : Except Failure α → Action β) :
    (action.attempt >>= next).run = action.run.bind fun outcome => (next outcome).run :=
  Program.bind_assoc action.run _ _

theorem works_attempt {action : Action α} {next : Except Failure α → Action β}
    (first : action.Works bound)
    (rest : ∀ outcome, Fails (·.isOrdinary = true) outcome → (next outcome).Works more) :
    (action.attempt >>= next).Works (bound + more) := by
  rw [Works, run_attempt_bind]
  exact Program.Within.bind (Program.Within.weaken first (fun _ own => own) rest)

theorem works_recover {action : Action Unit} {handler : Failure → Action Unit}
    (first : action.Works bound) (handles : ∀ fault, (handler fault).Works more) :
    (action.recover Failure.isOrdinary handler).Works (bound + more) := by
  refine works_attempt first fun outcome ordinary => ?_
  cases outcome with
  | ok => exact works_pure ()
  | error failure =>
      show (if failure.isOrdinary = true then _ else _ : Action Unit).Works more
      rw [if_pos (ordinary failure rfl)]
      exact handles failure

end Action

end WebHarvest
