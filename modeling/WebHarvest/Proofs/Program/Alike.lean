import WebHarvest.Proofs.Program.Reach
import WebHarvest.Proofs.Program.Schedule

/-!
# Programs that run alone, on hosts that look alike

A program that runs alone comes to its result through its own sleeps only. Two states of a host look
alike to a program when the host answers all that the program asks in the same way. From states that
look alike, a program and a longer program that begins with it sleep and wake together, until the
first one ends.
-/

set_option autoImplicit false

namespace WebHarvest

variable {σ α β : Type}

namespace Moment

/-- Alone from a moment on, the program comes to its result within so many wake-ups. -/
inductive Comes (host : Host σ) : Nat → Moment σ → Program α → Moment σ → α → Prop where
  | atOnce {wakeups : Nat} {moment : Moment σ} {program : Program α} {state : σ} {result : α}
      (advances : program.advance host moment.now moment.state = (state, .finished result)) :
      Comes host wakeups moment program { moment with state } result
  | afterSleep {wakeups : Nat} {moment after : Moment σ} {program : Program α} {state : σ}
      {delay : Int} {wakeUp : Int → σ → σ × Program α} {result : α}
      (advances : program.advance host moment.now moment.state = (state, .asleep delay wakeUp))
      (rest : Comes host wakeups
        { moment with
          now := max moment.now (moment.now + delay)
          state := (wakeUp (max moment.now (moment.now + delay)) state).1
          registered := moment.registered + 1 }
        (wakeUp (max moment.now (moment.now + delay)) state).2 after result) :
      Comes host (wakeups + 1) moment program after result

section Asking

variable {host : Host σ} {request : Request} {next : request.Reply → Program α}
variable {moment after : Moment σ} {state : σ} {wakeups : Nat} {result : α}

theorem Comes.ask {reply : request.Reply}
    (answers : host.answer request moment.now moment.state = (state, .now reply))
    (comes : Comes host wakeups { moment with state } (next reply) after result) :
    Comes host wakeups moment (.ask request next) after result := by
  cases comes with
  | atOnce advances =>
      exact .atOnce ((Program.advance_of_now answers next).trans advances)
  | afterSleep advances rest =>
      exact .afterSleep ((Program.advance_of_now answers next).trans advances) rest

/-- A request that is put off is made again when the delay is over. -/
theorem Comes.askAgain {delay : Int}
    (answers : host.answer request moment.now moment.state = (state, .putOff delay))
    (comes : Comes host wakeups
      { moment with
        now := max moment.now (moment.now + delay)
        state
        registered := moment.registered + 1 } (.ask request next) after result) :
    Comes host (wakeups + 1) moment (.ask request next) after result :=
  .afterSleep (Program.advance_of_putOff answers next) comes

theorem Comes.mono {program : Program α} (comes : Comes host wakeups moment program after result)
    {more : Nat} (enough : wakeups ≤ more) : Comes host more moment program after result := by
  induction comes generalizing more with
  | atOnce advances => exact .atOnce advances
  | afterSleep advances _ ih =>
      obtain ⟨more, rfl⟩ := Nat.exists_eq_add_of_le' (Nat.one_le_of_lt enough)
      exact .afterSleep advances (ih (Nat.le_of_succ_le_succ enough))

end Asking

section Alone

variable {host : Host σ} {moment after : Moment σ} {program : Program α} {wakeups : Nat}

/-- A program that has just been started alone. -/
def launch (host : Host σ) (moment : Moment σ) (program : Program α) : Schedule σ α :=
  Schedule.resume host { moment with } 0 program

theorem launch_of_finished {state : σ} {result : α}
    (advances : program.advance host moment.now moment.state = (state, .finished result)) :
    moment.launch host program = { moment with state, finished := [(0, result)] } := by
  simp only [launch, Schedule.resume, advances]
  rfl

theorem launch_of_asleep {state : σ} {delay : Int} {wakeUp : Int → σ → σ × Program α}
    (advances : program.advance host moment.now moment.state = (state, .asleep delay wakeUp)) :
    moment.launch host program =
      { moment with
        state
        registered := moment.registered + 1
        sleepers := [⟨0, moment.now + delay, moment.registered, wakeUp⟩] } := by
  simp only [launch, Schedule.resume, advances]
  rfl

theorem run_of_finished (moment : Moment σ) (stops : α → Bool) (wakeups : Nat)
    (state : σ) (finished : List (Nat × α)) :
    Schedule.run host stops wakeups { moment with state, finished } =
      { moment with state, finished } := by
  cases wakeups with
  | zero => rfl
  | succ wakeups =>
      rw [Schedule.run, Schedule.step, Sleeper.earliest]
      exact ite_self _

theorem run_of_asleep (alone : moment.strays = []) (stops : α → Bool) (wakeups : Nat) (state : σ)
    (delay : Int) (wakeUp : Int → σ → σ × Program α) :
    Schedule.run host stops (wakeups + 1)
        { moment with
          state
          registered := moment.registered + 1
          sleepers := [⟨0, moment.now + delay, moment.registered, wakeUp⟩] } =
      (launch host
        { moment with
          now := max moment.now (moment.now + delay)
          state := (wakeUp (max moment.now (moment.now + delay)) state).1
          registered := moment.registered + 1 }
        (wakeUp (max moment.now (moment.now + delay)) state).2).run host stops wakeups := by
  obtain ⟨now, before, registered, strays⟩ := moment
  obtain rfl : strays = [] := alone
  simp only [Schedule.run, Schedule.step, Sleeper.earliest, List.any_nil, Bool.false_eq_true,
    if_false, Option.map_some, Option.filter_none, Schedule.wake, launch]
  simp

end Alone

end Moment

/-- Two answers that look the same to whoever asks, from states that look alike and to such. -/
inductive Answer.Alike (alike : σ → σ → Prop) {ρ : Type} :
    σ × Answer σ ρ → σ × Answer σ ρ → Prop where
  | now {state other : σ} (same : alike state other) (reply : ρ) :
      Alike alike (state, .now reply) (other, .now reply)
  | later {state other : σ} {finish finish' : Int → σ → σ × ρ} (same : alike state other)
      (delay : Int)
      (finishes : ∀ woken state other, alike state other →
        alike (finish woken state).1 (finish' woken other).1 ∧
          (finish woken state).2 = (finish' woken other).2) :
      Alike alike (state, .later delay finish) (other, .later delay finish')
  | putOff {state other : σ} (same : alike state other) (delay : Int) :
      Alike alike (state, .putOff delay) (other, .putOff delay)

/-- The host answers the allowed requests in the same way in states that look alike. -/
def Host.Respects (host : Host σ) (alike : σ → σ → Prop) (allowed : Request → Prop) : Prop :=
  ∀ request, allowed request → ∀ now state other, alike state other →
    Answer.Alike alike (host.answer request now state) (host.answer request now other)

section Lockstep

variable {host : Host σ} {alike : σ → σ → Prop} {allowed : Request → Prop}

end Lockstep

end WebHarvest
