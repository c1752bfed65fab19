import WebHarvest.Program.Basic

/-!
# Traces

A run of a program is the list of its requests with the replies that the host gave. What is shown
for all runs of a program holds for every host, whatever it replies.
-/

set_option autoImplicit false

namespace WebHarvest

structure Exchange where
  request : Request
  reply : request.Reply

namespace Program

variable {α β : Type}

/-- The program ends with the result after the exchanges of the trace. -/
inductive Runs : Program α → List Exchange → α → Prop where
  | done (result : α) : Runs (.done result) [] result
  | ask {request : Request} {next : request.Reply → Program α} {trace : List Exchange} {result : α}
      (reply : request.Reply) (run : Runs (next reply) trace result) :
      Runs (.ask request next) (⟨request, reply⟩ :: trace) result

theorem runs_done {first result : α} {trace : List Exchange} :
    (done first).Runs trace result ↔ trace = [] ∧ result = first := by
  constructor
  · intro run
    cases run
    exact ⟨rfl, rfl⟩
  · rintro ⟨rfl, rfl⟩
    exact .done result

theorem runs_request {r : Request} {trace : List Exchange} {result : r.Reply} :
    (request r).Runs trace result ↔ trace = [⟨r, result⟩] := by
  constructor
  · intro run
    cases run with
    | ask reply run =>
        obtain ⟨rfl, rfl⟩ := runs_done.mp run
        rfl
  · rintro rfl
    exact .ask result (.done result)

theorem runs_bind {program : Program α} {next : α → Program β} {trace : List Exchange}
    {result : β} :
    (program.bind next).Runs trace result ↔
      ∃ before middle after, program.Runs before middle ∧ (next middle).Runs after result ∧
        trace = before ++ after := by
  induction program generalizing trace with
  | done first =>
      constructor
      · intro run
        exact ⟨[], first, trace, .done first, run, rfl⟩
      · rintro ⟨before, middle, after, run, rest, rfl⟩
        cases run
        exact rest
  | ask request goesOn ih =>
      constructor
      · intro run
        cases run with
        | ask reply run =>
            obtain ⟨before, middle, after, first, rest, rfl⟩ := (ih reply).mp run
            exact ⟨⟨request, reply⟩ :: before, middle, after, .ask reply first, rest, rfl⟩
      · rintro ⟨before, middle, after, run, rest, rfl⟩
        cases run with
        | ask reply run => exact .ask reply ((ih reply).mpr ⟨_, _, _, run, rest, rfl⟩)

/-- Whatever a host replies, which may depend on all that has happened, the program ends. -/
theorem exists_run (program : Program α)
    (answer : List Exchange → (request : Request) → request.Reply) (past : List Exchange) :
    ∃ trace result, program.Runs trace result ∧
      ∀ before exchange after, trace = before ++ exchange :: after →
        exchange.reply = answer (past ++ before) exchange.request := by
  induction program generalizing past with
  | done result => exact ⟨[], result, .done result, by simp⟩
  | ask request next ih =>
      let reply := answer past request
      obtain ⟨trace, result, run, answered⟩ := ih reply (past ++ [⟨request, reply⟩])
      refine ⟨⟨request, reply⟩ :: trace, result, .ask reply run, ?_⟩
      intro before exchange after split
      cases before with
      | nil =>
          cases split
          rw [List.append_nil]
      | cons first others =>
          obtain ⟨rfl, rest⟩ := List.cons.inj split
          have told := answered others exchange after rest
          rwa [List.append_assoc, List.singleton_append] at told

end Program

namespace Action

variable {α β : Type}

/-- The action ends with the outcome after the exchanges of the trace. -/
def Runs (action : Action α) (trace : List Exchange) (outcome : Except Failure α) : Prop :=
  action.run.Runs trace outcome

section Steps

variable {trace : List Exchange}

theorem runs_pure {result : α} {outcome : Except Failure α} :
    Runs (pure result) trace outcome ↔ trace = [] ∧ outcome = .ok result :=
  Program.runs_done

theorem runs_throw {failure : Failure} {outcome : Except Failure α} :
    Runs (throw failure : Action α) trace outcome ↔ trace = [] ∧ outcome = .error failure :=
  Program.runs_done

/-- The second action runs when the first has succeeded; a failure ends both. -/
theorem runs_bind {action : Action α} {next : α → Action β} {outcome : Except Failure β} :
    Runs (action >>= next) trace outcome ↔
      (∃ before result after, action.Runs before (.ok result) ∧ (next result).Runs after outcome ∧
        trace = before ++ after) ∨
      ∃ failure, action.Runs trace (.error failure) ∧ outcome = .error failure := by
  have unfolded : Runs (action >>= next) trace outcome ↔
      (action.run.bind (ExceptT.bindCont next)).Runs trace outcome := Iff.rfl
  rw [unfolded, Program.runs_bind]
  constructor
  · rintro ⟨before, middle, after, run, rest, rfl⟩
    cases middle with
    | ok result => exact Or.inl ⟨before, result, after, run, rest, rfl⟩
    | error failure =>
        obtain ⟨rfl, rfl⟩ := Program.runs_done.mp rest
        rw [List.append_nil]
        exact Or.inr ⟨failure, run, rfl⟩
  · rintro (⟨before, result, after, run, rest, rfl⟩ | ⟨failure, run, rfl⟩)
    · exact ⟨before, .ok result, after, run, rest, rfl⟩
    · exact ⟨trace, .error failure, [], run, .done _, (List.append_nil _).symm⟩

theorem runs_lift {program : Program α} {outcome : Except Failure α} :
    Runs (ExceptT.lift program) trace outcome ↔
      ∃ result, program.Runs trace result ∧ outcome = .ok result := by
  have unfolded : Runs (ExceptT.lift program) trace outcome ↔
      (program.bind fun result => .done (.ok result)).Runs trace outcome := Iff.rfl
  rw [unfolded, Program.runs_bind]
  constructor
  · rintro ⟨before, result, after, run, rest, rfl⟩
    obtain ⟨rfl, rfl⟩ := Program.runs_done.mp rest
    rw [List.append_nil]
    exact ⟨result, run, rfl⟩
  · rintro ⟨result, run, rfl⟩
    exact ⟨trace, result, [], run, .done _, (List.append_nil _).symm⟩

theorem runs_query {request : Request} {outcome : Except Failure request.Reply} :
    Runs (query request) trace outcome ↔
      ∃ reply, trace = [⟨request, reply⟩] ∧ outcome = .ok reply := by
  rw [query, runs_lift]
  simp only [Program.runs_request]

theorem runs_emit {kind : SignalKind} {payload : List (Value × Value)}
    {outcome : Except Failure Unit} :
    Runs (emit kind payload) trace outcome ↔ trace = [⟨.emit kind payload, outcome⟩] :=
  Program.runs_request

theorem runs_pause {millis : Int} {outcome : Except Failure Unit} :
    Runs (pause millis) trace outcome ↔ trace = [⟨.pause millis, outcome⟩] :=
  Program.runs_request

theorem runs_observe {failure : Failure} {details : List (Value × Value)}
    {outcome : Except Failure Unit} :
    Runs (observe failure details) trace outcome ↔
      trace = [⟨.observe failure details, outcome⟩] :=
  Program.runs_request

theorem runs_attempt {action : Action α} {outcome : Except Failure (Except Failure α)} :
    Runs action.attempt trace outcome ↔
      ∃ inner, action.Runs trace inner ∧ outcome = .ok inner :=
  runs_lift

theorem recover_runs {action : Action α} {handles : Failure → Bool}
    {handler : Failure → Action α} {outcome : Except Failure α}
    (run : (action.recover handles handler).Runs trace outcome) :
    (∃ result, action.Runs trace (.ok result) ∧ outcome = .ok result) ∨
      (∃ failure, handles failure = false ∧ action.Runs trace (.error failure) ∧
        outcome = .error failure) ∨
      ∃ before failure after, handles failure = true ∧ action.Runs before (.error failure) ∧
        (handler failure).Runs after outcome ∧ trace = before ++ after := by
  unfold recover at run
  rcases runs_bind.mp run with ⟨before, inner, after, attempted, rest, rfl⟩ | ⟨_, lost, -⟩
  · obtain ⟨_, ran, same⟩ := runs_attempt.mp attempted
    cases same
    cases inner with
    | ok result =>
        obtain ⟨rfl, rfl⟩ := runs_pure.mp rest
        rw [List.append_nil]
        exact Or.inl ⟨result, ran, rfl⟩
    | error failure =>
        cases handled : handles failure with
        | true =>
            simp only [handled, if_true] at rest
            exact Or.inr (Or.inr ⟨before, failure, after, handled, ran, rest, rfl⟩)
        | false =>
            simp only [handled, Bool.false_eq_true, if_false] at rest
            obtain ⟨rfl, rfl⟩ := runs_throw.mp rest
            rw [List.append_nil]
            exact Or.inr (Or.inl ⟨failure, handled, ran, rfl⟩)
  · obtain ⟨_, -, impossible⟩ := runs_attempt.mp lost
    cases impossible

end Steps

end Action

end WebHarvest
