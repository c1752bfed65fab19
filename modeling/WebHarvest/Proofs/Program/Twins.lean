import WebHarvest.Proofs.Program.Alike

/-!
# Programs that differ in one call

Two programs that ask for the same things but for one call of the engine, and go on alike after it,
come to the same end at the same time, on every host that answers both calls alike and does not let
on afterwards which of them was made.
-/

set_option autoImplicit false

namespace WebHarvest

open Browser (Call)

variable {σ α β : Type} {first second : Call} {allowed : Request → Prop}

namespace Program

/-- The first program makes one call where the second makes another, and both go on alike after it,
with allowed requests only; or they do not come so far, and ask for the same all along. -/
inductive Twins (first second : Call) (allowed : Request → Prop) :
    Program α → Program α → Prop where
  | same (program : Program α) : Twins first second allowed program program
  | differ {next : Except Failure Value → Program α} (rest : ∀ reply, (next reply).Asks allowed) :
      Twins first second allowed (.ask (.browser first) next) (.ask (.browser second) next)
  | ask {request : Request} {next next' : request.Reply → Program α}
      (rest : ∀ reply, Twins first second allowed (next reply) (next' reply)) :
      Twins first second allowed (.ask request next) (.ask request next')

/-- Programs that differ in one call, and then go on in the same way. -/
theorem Twins.bind {program program' : Program α} (twins : Twins first second allowed program program')
    {next : α → Program β} (asks : ∀ result, (next result).Asks allowed) :
    Twins first second allowed (program.bind next) (program'.bind next) := by
  induction twins with
  | same program => exact .same _
  | differ rest => exact .differ fun reply => (rest reply).bind asks
  | ask _ ih => exact .ask ih

/-- A program that goes on in ways that differ in one call. -/
theorem twins_bind (program : Program α) {next next' : α → Program β}
    (rest : ∀ result, Twins first second allowed (next result) (next' result)) :
    Twins first second allowed (program.bind next) (program.bind next') := by
  induction program with
  | done result => exact rest result
  | ask request _ ih => exact .ask ih

end Program

namespace Action

/-- Whatever the replies, the actions ask for the same but for one call. -/
def Twins (first second : Call) (allowed : Request → Prop) (action action' : Action α) : Prop :=
  Program.Twins first second allowed action.run action'.run

theorem Twins.bind {action action' : Action α} (twins : Twins first second allowed action action')
    {next : α → Action β} (asks : ∀ result, (next result).Asks allowed) :
    Twins first second allowed (action >>= next) (action' >>= next) := by
  refine Program.Twins.bind twins fun outcome => ?_
  cases outcome with
  | ok result => exact asks result
  | error failure => exact .done _

theorem twins_bind (action : Action α) {next next' : α → Action β}
    (rest : ∀ result, Twins first second allowed (next result) (next' result)) :
    Twins first second allowed (action >>= next) (action >>= next') := by
  refine Program.twins_bind action.run fun outcome => ?_
  cases outcome with
  | ok result => exact rest result
  | error failure => exact .same _

theorem twins_browser (first second : Call) (allowed : Request → Prop) :
    Twins first second allowed (browser first) (browser second) :=
  .differ fun _ => .done _

end Action

/-- The host answers both calls alike, without putting them off, and does not let on to whoever asks
for what is allowed which of them was made. -/
structure Host.Conceals (host : Host σ) (alike : σ → σ → Prop) (first second : Call)
    (allowed : Request → Prop) : Prop where
  respects : host.Respects alike allowed
  answers : ∀ now state, Answer.Alike alike (host.answer (.browser first) now state)
    (host.answer (.browser second) now state)
  prompt : ∀ now state delay, (host.answer (.browser first) now state).2 ≠ .putOff delay

/-- Two states and what is left of two programs: the call by which they differ is still to come, or
it has been made and nothing else tells them apart. -/
inductive Abreast (alike : σ → σ → Prop) (first second : Call) (allowed : Request → Prop) :
    σ × Program α → σ × Program α → Prop where
  | before (state : σ) {program program' : Program α}
      (twins : program.Twins first second allowed program') :
      Abreast alike first second allowed (state, program) (state, program')
  | after {state other : σ} {program : Program α} (same : alike state other)
      (asks : program.Asks allowed) :
      Abreast alike first second allowed (state, program) (other, program)

/-- Both have ended with the same result, or both sleep as long and wake up abreast. -/
inductive Abreast.Halted (alike : σ → σ → Prop) (first second : Call) (allowed : Request → Prop) :
    σ × Pause σ α → σ × Pause σ α → Prop where
  | finished {state other : σ} (same : state = other ∨ alike state other) (result : α) :
      Halted alike first second allowed (state, .finished result) (other, .finished result)
  | asleep {state other : σ} {wakeUp wakeUp' : Int → σ → σ × Program α}
      (same : state = other ∨ alike state other) (delay : Int)
      (wakes : ∀ woken, Abreast alike first second allowed (wakeUp woken state)
        (wakeUp' woken other)) :
      Halted alike first second allowed (state, .asleep delay wakeUp)
        (other, .asleep delay wakeUp')

section Lockstep

variable {host : Host σ} {alike : σ → σ → Prop}

open Abreast (Halted)

theorem halted_of_alike (respects : host.Respects alike allowed) {program : Program α}
    (asks : program.Asks allowed) (now : Int) {state other : σ} (same : alike state other) :
    Halted alike first second allowed (program.advance host now state)
      (program.advance host now other) := by
  induction asks generalizing state other with
  | done result => exact .finished (.inr same) result
  | @ask request next own rest ih =>
      have answers := respects request own now state other same
      rw [Program.advance, Program.advance]
      revert answers
      generalize host.answer request now state = one
      generalize host.answer request now other = two
      intro answers
      cases answers with
      | now same reply => exact ih reply same
      | later same delay finishes =>
          refine .asleep (.inr same) delay fun woken => ?_
          obtain ⟨kept, replied⟩ := finishes woken _ _ same
          dsimp only
          rw [← replied]
          exact .after kept (rest _)
      | putOff same delay => exact .asleep (.inr same) delay fun _ => .after same (.ask own rest)

theorem halted_of_twins (conceals : host.Conceals alike first second allowed)
    {program program' : Program α} (twins : program.Twins first second allowed program')
    (now : Int) (state : σ) :
    Halted alike first second allowed (program.advance host now state)
      (program'.advance host now state) := by
  induction twins generalizing state with
  | same program =>
      rcases program.advance host now state with ⟨reached, pause⟩
      cases pause with
      | finished result => exact .finished (.inl rfl) result
      | asleep delay wakeUp => exact .asleep (.inl rfl) delay fun woken => .before _ (.same _)
  | differ rest =>
      have answers := conceals.answers now state
      have prompt := conceals.prompt now state
      unfold Program.advance
      revert answers prompt
      generalize host.answer (.browser first) now state = one
      generalize host.answer (.browser second) now state = two
      intro answers prompt
      cases answers with
      | now same reply => exact halted_of_alike conceals.respects (rest reply) now same
      | later same delay finishes =>
          refine .asleep (.inr same) delay fun woken => ?_
          obtain ⟨kept, replied⟩ := finishes woken _ _ same
          dsimp only
          rw [← replied]
          exact .after kept (rest _)
      | putOff same delay => exact absurd rfl (prompt delay)
  | @ask request next next' rest ih =>
      rw [Program.advance, Program.advance]
      rcases host.answer request now state with ⟨reached, reply | ⟨delay, finish⟩ | delay⟩
      · exact ih reply reached
      · exact .asleep (.inl rfl) delay fun woken => .before _ (rest _)
      · exact .asleep (.inl rfl) delay fun woken => .before _ (.ask rest)

theorem Abreast.halted (conceals : host.Conceals alike first second allowed)
    {one two : σ × Program α} (abreast : Abreast alike first second allowed one two) (now : Int) :
    Halted alike first second allowed (one.2.advance host now one.1)
      (two.2.advance host now two.1) := by
  cases abreast with
  | before state twins => exact halted_of_twins conceals twins now state
  | after same asks => exact halted_of_alike conceals.respects asks now same

/-- Run alone from states abreast, both programs take the same time and come to the same result; and
the states that they leave are equal, or alike. -/
theorem Abreast.run (conceals : host.Conceals alike first second allowed) (now : Int)
    (registered : Nat) {state other : σ} {program program' : Program α}
    (abreast : Abreast alike first second allowed (state, program) (other, program'))
    (stops : α → Bool) (wakeups : Nat) :
    let one := (Moment.launch host ⟨now, state, registered, []⟩ program).run host stops wakeups
    let two := (Moment.launch host ⟨now, other, registered, []⟩ program').run host stops wakeups
    one.finished = two.finished ∧ one.now = two.now ∧ one.registered = two.registered ∧
      (one.state = two.state ∨ alike one.state two.state) := by
  induction wakeups generalizing now registered state other program program' with
  | zero =>
      have halted := abreast.halted conceals now
      rcases advances : program.advance host now state with ⟨reached, pause⟩
      rcases advances' : program'.advance host now other with ⟨reached', pause'⟩
      rw [advances, advances'] at halted
      cases halted with
      | finished same result =>
          rw [Moment.launch_of_finished advances, Moment.launch_of_finished advances']
          exact ⟨rfl, rfl, rfl, same⟩
      | asleep same delay wakes =>
          rw [Moment.launch_of_asleep advances, Moment.launch_of_asleep advances']
          exact ⟨rfl, rfl, rfl, same⟩
  | succ wakeups ih =>
      have halted := abreast.halted conceals now
      rcases advances : program.advance host now state with ⟨reached, pause⟩
      rcases advances' : program'.advance host now other with ⟨reached', pause'⟩
      rw [advances, advances'] at halted
      cases halted with
      | finished same result =>
          rw [Moment.launch_of_finished advances, Moment.launch_of_finished advances',
            Moment.run_of_finished, Moment.run_of_finished]
          exact ⟨rfl, rfl, rfl, same⟩
      | @asleep _ _ wakeUp wakeUp' same delay wakes =>
          rw [Moment.launch_of_asleep advances, Moment.launch_of_asleep advances',
            Moment.run_of_asleep rfl, Moment.run_of_asleep rfl]
          exact ih _ _ (wakes (max now (now + delay)))

theorem Action.Twins.perform (conceals : host.Conceals alike first second allowed)
    {action action' : Action α} (twins : Action.Twins first second allowed action action')
    (wakeups : Nat) {moment : Moment σ} (alone : moment.strays = []) :
    let one := moment.perform host wakeups action
    let other := moment.perform host wakeups action'
    one.2 = other.2 ∧ one.1.now = other.1.now ∧
      (one.1.state = other.1.state ∨ alike one.1.state other.1.state) := by
  obtain ⟨now, state, registered, strays⟩ := moment
  obtain rfl : strays = [] := alone
  have abreast : Abreast alike first second allowed (state, action.run) (state, action'.run) :=
    .before state twins
  obtain ⟨finished, sameNow, -, same⟩ := abreast.run conceals now
    registered (fun _ => false) wakeups
  refine ⟨?_, sameNow, same⟩
  exact congrArg (fun ended : List (Nat × Except Failure α) =>
    (ended.head?.map (·.2)).getD (.error (.raised .timeout none))) finished

end Lockstep

end WebHarvest
