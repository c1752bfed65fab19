import WebHarvest.Program.Basic

/-!
# Programs that settle

A program around one operation settles when it ends within a number of requests, with a result of
a given kind, as long as every reply fits: the operation comes to what its attempts say, pauses come
to what they always come to, signals are emitted, slots are given, and callbacks fail in no other
way than an ordinary one. How long the host takes for its replies is left open.
-/

set_option autoImplicit false

namespace WebHarvest

/-- What an operation comes to, attempt by attempt, the next one first. -/
abbrev Attempts := Nat → Except Failure Value

namespace Attempts

def rest (attempts : Attempts) : Attempts := fun number => attempts (number + 1)

def after (attempts : Attempts) : Request → Attempts
  | .perform _ => attempts.rest
  | _ => attempts

/-- All attempts come to the same. -/
def Steady (attempts : Attempts) : Prop := ∀ number, attempts number = attempts 0

theorem Steady.after_eq {attempts : Attempts} (steady : attempts.Steady) (request : Request) :
    attempts.after request = attempts := by
  cases request with
  | perform name =>
      funext number
      exact (steady (number + 1)).trans (steady number).symm
  | _ => rfl

end Attempts

namespace Request

/-- The requests of a program around the operation `name`. What it emits has texts as its keys. -/
def IsFor (name : String) : Request → Prop
  | .perform operation => operation = name
  | .emit _ payload => ∃ entries : Record, .map payload = Value.record entries
  | .now | .elapsed _ | .pause _ | .log _ | .takeSlot .. | .observe .. | .beginCount
  | .countSettled _ | .progress .. => True
  | _ => False

def Fits (pauses : Int → Except Failure Unit) (attempts : Attempts) :
    (request : Request) → request.Reply → Prop
  | .perform _, reply => reply = attempts 0
  | .pause millis, reply => reply = pauses millis
  | .emit .., reply => reply = .ok ()
  | .takeSlot .., reply => reply = .ok ()
  | .observe .., reply => ∀ failure, reply = .error failure → failure.isOrdinary = true
  | .progress .., reply => ∀ failure, reply = .error failure → failure.isOrdinary = true
  | _, _ => True

end Request

namespace Program

variable {α β : Type} {pauses : Int → Except Failure Unit} {name : String}

/-- The program ends within `bound` requests; `good` holds of its result and of the attempts that
are left then. -/
inductive Settles (pauses : Int → Except Failure Unit) (name : String)
    (good : α → Attempts → Prop) : Nat → Attempts → Program α → Prop where
  | done {bound : Nat} {attempts : Attempts} {result : α} (holds : good result attempts) :
      Settles pauses name good bound attempts (.done result)
  | ask {bound : Nat} {attempts : Attempts} {request : Request}
      {next : request.Reply → Program α} (own : request.IsFor name)
      (goesOn : ∀ reply, request.Fits pauses attempts reply →
        Settles pauses name good bound (attempts.after request) (next reply)) :
      Settles pauses name good (bound + 1) attempts (.ask request next)

namespace Settles

variable {good : α → Attempts → Prop} {bound : Nat} {attempts : Attempts} {program : Program α}

theorem within (settles : Settles pauses name good bound attempts program) {more : Nat}
    (enough : bound ≤ more) : Settles pauses name good more attempts program := by
  induction settles generalizing more with
  | done holds => exact .done holds
  | ask own _ ih =>
      obtain ⟨rest, rfl⟩ := Nat.exists_eq_add_of_lt enough
      exact .ask own fun reply fits => ih reply fits (by omega)

theorem weaken (settles : Settles pauses name good bound attempts program)
    {other : α → Attempts → Prop} (weaker : ∀ result left, good result left → other result left) :
    Settles pauses name other bound attempts program := by
  induction settles with
  | done holds => exact .done (weaker _ _ holds)
  | ask own _ ih => exact .ask own ih

theorem bind {next : α → Program β} {final : β → Attempts → Prop} {more : Nat}
    (settles : Settles pauses name
      (fun result left => Settles pauses name final more left (next result)) bound attempts
        program) :
    Settles pauses name final (bound + more) attempts (program.bind next) := by
  induction settles with
  | done holds => exact holds.within (Nat.le_add_left _ _)
  | @ask bound _ _ _ own _ ih =>
      rw [Nat.add_right_comm]
      exact .ask own ih

end Settles

end Program

namespace Action

variable {α β : Type} {pauses : Int → Except Failure Unit} {name : String}

/-- The action ends within `bound` requests, with an outcome of which `good` holds. -/
def Settles (pauses : Int → Except Failure Unit) (name : String)
    (good : Except Failure α → Attempts → Prop) (bound : Nat) (attempts : Attempts)
    (action : Action α) : Prop :=
  action.run.Settles pauses name good bound attempts

section Steps

variable {good : Except Failure α → Attempts → Prop} {final : Except Failure β → Attempts → Prop}
variable {bound more : Nat} {attempts : Attempts}

end Steps

section Passing

variable {action : Action Unit} {next : Unit → Action β}
variable {final : Except Failure β → Attempts → Prop} {bound more : Nat} {attempts : Attempts}

end Passing

end Action

end WebHarvest
