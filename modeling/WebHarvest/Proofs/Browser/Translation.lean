import WebHarvest.Proofs.Browser.Guard
import WebHarvest.Proofs.Retry

/-!
# How failures of the engine come out

The calls that visit and read a page are guarded: a failure of the engine comes out of them as a
harvesting failure. Opening a page, closing it and reading cookies are not guarded: what they raise
comes out as it is, and what the closing raises takes the place of what came before it.
-/

set_option autoImplicit false

namespace WebHarvest

/-- A failure that neither the engine nor an interruption has raised. -/
def Failure.IsOwn (failure : Failure) : Prop :=
  failure.isBrowser = false ∧ failure.isOrdinary = true

theorem Failure.Translates.isOwn {raw translated : Failure}
    (translates : raw.Translates translated) : translated.IsOwn := by
  obtain ⟨_, _, _, _, _, rfl, -⟩ := translates
  exact ⟨rfl, rfl⟩

namespace Browser

/-- The calls whose failures the layer translates. -/
def Call.isGuarded : Call → Bool
  | goto .. | waitForLoadState .. | waitForSelector .. | extractAll .. | evaluate ..
  | screenshot .. => true
  | _ => false

/-- The exchange is no call to the engine, or one that is not guarded. -/
def Bare (exchange : Exchange) : Prop :=
  ∀ call, exchange.request = .browser call → call.isGuarded = false

/-- A failure that comes out is neither the engine's nor an interruption, unless the host has raised
it; one of the engine has then been raised by something else than a guarded call. -/
def Sourced {α : Type} (trace : List Exchange) (outcome : Except Failure α) : Prop :=
  ∀ failure, outcome = .error failure → failure.IsOwn ∨
    ∃ exchange ∈ trace, exchange.failure? = some failure ∧
      (failure.isBrowser = true → Bare exchange)

/-- All calls to the engine are guarded. The first one that fails ends the run in its translation,
so no failure of the engine comes out unless something else than the engine has raised it. -/
structure Translated {α : Type} (trace : List Exchange) (outcome : Except Failure α) : Prop where
  guarded : ∀ call reply, ⟨.browser call, reply⟩ ∈ trace → call.isGuarded = true
  caught : ∀ call failure, ⟨.browser call, .error failure⟩ ∈ trace → failure.isBrowser = true →
    ∃ translated, outcome = .error translated ∧ failure.Translates translated
  foreign : Sourced trace outcome

/-- How the failures of the engine come out of a run. That of a guarded call comes out as its
translation, unless a page could not be closed afterwards; that of any other call comes out as it
is. -/
structure Surfaces {α : Type} (trace : List Exchange) (outcome : Except Failure α) : Prop where
  guarded : ∀ call failure, call.isGuarded = true → ⟨.browser call, .error failure⟩ ∈ trace →
    failure.isBrowser = true →
    (∃ translated, outcome = .error translated ∧ failure.Translates translated) ∨
      ∃ page fault, ⟨.browser (.closePage page), .error fault⟩ ∈ trace ∧ outcome = .error fault
  bare : ∀ call failure, call.isGuarded = false → ⟨.browser call, .error failure⟩ ∈ trace →
    outcome = .error failure
  foreign : Sourced trace outcome

section Actions

variable {α β : Type}

/-- Every run of the action translates the failures of the engine. -/
def Translates (action : Action α) : Prop :=
  ∀ trace outcome, action.Runs trace outcome → Translated trace outcome

theorem translates_pure (value : α) : Translates (pure value : Action α) := by
  intro trace outcome run
  obtain ⟨rfl, rfl⟩ := Action.runs_pure.mp run
  exact ⟨fun _ _ member => absurd member List.not_mem_nil,
    fun _ _ member => absurd member List.not_mem_nil, by rintro _ ⟨⟩⟩

theorem translates_log (record : LogRecord) : Translates (Action.log record) := by
  intro trace outcome run
  obtain ⟨rfl, rfl⟩ := Retry.log_runs.mp run
  refine ⟨fun call reply member => ?_, fun call failure member => ?_, by rintro _ ⟨⟩⟩
  · cases List.mem_singleton.mp member
  · cases List.mem_singleton.mp member

theorem translates_makeParents (path : String) : Translates (Action.makeParents path) := by
  intro trace outcome run
  obtain rfl := Program.runs_request.mp run
  refine ⟨fun call reply member => ?_, fun call failure member => ?_, ?_⟩
  · cases List.mem_singleton.mp member
  · cases List.mem_singleton.mp member
  · rintro failure rfl
    exact Or.inr ⟨_, List.mem_singleton_self _, rfl, fun _ => by rintro call ⟨⟩⟩

theorem translates_guard {call : Call} {blame : Failure → Failure}
    (isGuarded : call.isGuarded = true)
    (blames : ∀ failure : Failure, failure.isBrowser = true →
      Failure.Translates failure (blame failure)) :
    Translates (guard call blame) := by
  intro trace outcome run
  obtain ⟨reply, rfl, rfl⟩ := guard_runs.mp run
  refine ⟨fun other _ member => ?_, fun other failure member isBrowser => ?_,
    fun failure fails => ?_⟩
  · cases List.mem_singleton.mp member
    exact isGuarded
  · cases List.mem_singleton.mp member
    refine ⟨blame failure, ?_, blames failure isBrowser⟩
    simp only [Except.mapError, isBrowser, if_true]
  · cases reply with
    | ok value => cases fails
    | error raw =>
        obtain rfl := Except.error.inj fails
        dsimp only
        cases raws : raw.isBrowser with
        | true =>
            rw [if_pos rfl]
            exact Or.inl (blames raw raws).isOwn
        | false =>
            rw [if_neg Bool.false_ne_true]
            refine Or.inr ⟨_, List.mem_singleton_self _, rfl, fun isBrowser => ?_⟩
            rw [raws] at isBrowser
            cases isBrowser

theorem Sourced.mono {trace more : List Exchange} {outcome : Except Failure α}
    (sourced : Sourced trace outcome) (within : ∀ exchange ∈ trace, exchange ∈ more) :
    Sourced more outcome := by
  intro failure fails
  obtain own | ⟨exchange, member, raised⟩ := sourced failure fails
  · exact Or.inl own
  · exact Or.inr ⟨exchange, within exchange member, raised⟩

theorem Sourced.of_error {trace : List Exchange} {failure : Failure}
    (sourced : Sourced trace (.error failure : Except Failure α)) :
    Sourced trace (.error failure : Except Failure β) := fun fault fails =>
  sourced fault (congrArg Except.error (Except.error.inj fails))

theorem Sourced.raised {trace : List Exchange} {request : Request} {failure : Failure}
    (quiet : ∀ call, request ≠ .browser call) {reply : request.Reply}
    (member : ⟨request, reply⟩ ∈ trace)
    (raises : Exchange.failure? ⟨request, reply⟩ = some failure) :
    Sourced trace (.error failure : Except Failure α) := by
  rintro fault fails
  obtain rfl := Except.error.inj fails
  exact Or.inr ⟨_, member, raises, fun _ call same => absurd same (quiet call)⟩

def Sources (action : Action α) : Prop :=
  ∀ trace outcome, action.Runs trace outcome → Sourced trace outcome

theorem sources_settle {outcome : Except Failure α}
    (own : ∀ failure, outcome = .error failure → failure.IsOwn) :
    Sources (Action.settle outcome) := by
  intro trace result run
  obtain ⟨-, rfl⟩ := Program.runs_done.mp run
  exact fun failure fails => Or.inl (own failure fails)

theorem sources_pure (value : α) : Sources (pure value : Action α) :=
  by
  intro trace outcome run
  obtain ⟨-, rfl⟩ := Action.runs_pure.mp run
  rintro _ ⟨⟩

theorem sources_query (request : Request) : Sources (Action.query request) := by
  intro trace outcome run
  obtain ⟨_, -, rfl⟩ := Action.runs_query.mp run
  rintro _ ⟨⟩

theorem sources_emit (kind : SignalKind) (payload : List (Value × Value)) :
    Sources (Action.emit kind payload) := by
  intro trace outcome run
  obtain rfl := Action.runs_emit.mp run
  rintro failure rfl
  exact Or.inr ⟨_, List.mem_singleton_self _, rfl, fun _ => by rintro _ ⟨⟩⟩

theorem sources_takeSlot (scope : RateLimit.Scope) (target : String) :
    Sources (Action.takeSlot scope target) := by
  intro trace outcome run
  obtain rfl := Program.runs_request.mp run
  rintro failure rfl
  exact Or.inr ⟨_, List.mem_singleton_self _, rfl, fun _ => by rintro _ ⟨⟩⟩

theorem sources_bind {action : Action α} {next : α → Action β} (first : Sources action)
    (rest : ∀ result, Sources (next result)) : Sources (action >>= next) := by
  intro trace outcome run
  rcases Action.runs_bind.mp run with ⟨_, result, _, -, goesOn, rfl⟩ | ⟨_, ran, rfl⟩
  · exact (rest result _ _ goesOn).mono fun _ => List.mem_append_right _
  · exact (first trace _ ran).of_error

theorem translates_bind {action : Action α} {next : α → Action β} (first : Translates action)
    (rest : ∀ result, Translates (next result)) : Translates (action >>= next) := by
  intro trace outcome run
  rcases Action.runs_bind.mp run with ⟨before, result, after, ran, goesOn, rfl⟩ | ⟨_, ran, rfl⟩
  · have one := first before _ ran
    have other := rest result after outcome goesOn
    refine ⟨fun call reply member => ?_, fun call failure member isBrowser => ?_,
      other.foreign.mono fun _ => List.mem_append_right _⟩
    · rcases List.mem_append.mp member with member | member
      · exact one.guarded call reply member
      · exact other.guarded call reply member
    · rcases List.mem_append.mp member with member | member
      · obtain ⟨_, impossible, -⟩ := one.caught call failure member isBrowser
        cases impossible
      · exact other.caught call failure member isBrowser
  · have one := first trace _ ran
    refine ⟨one.guarded, fun call failure member isBrowser => ?_, one.foreign.of_error⟩
    obtain ⟨translated, same, translates⟩ := one.caught call failure member isBrowser
    exact ⟨translated, congrArg Except.error (Except.error.inj same), translates⟩

/-- What makes no call to the engine has no failure of it to surface. -/
theorem Surfaces.of_quiet {trace : List Exchange} {outcome : Except Failure α}
    (quiet : ∀ exchange ∈ trace, ∀ call, exchange.request ≠ .browser call)
    (foreign : Sourced trace outcome) : Surfaces trace outcome where
  guarded call _ _ member := absurd rfl (quiet _ member call)
  bare call _ _ member := absurd rfl (quiet _ member call)
  foreign := foreign

/-- A run that has gone on has seen no call fail that its failure would have surfaced from. -/
theorem Surfaces.append {before after : List Exchange} {result : α} {outcome : Except Failure β}
    (first : Surfaces before (.ok result : Except Failure α)) (rest : Surfaces after outcome) :
    Surfaces (before ++ after) outcome := by
  refine ⟨fun call failure isGuarded member isBrowser => ?_,
    fun call failure isBare member => ?_, rest.foreign.mono fun _ => List.mem_append_right _⟩
  · rcases List.mem_append.mp member with member | member
    · obtain ⟨_, impossible, -⟩ | ⟨_, _, -, impossible⟩ :=
        first.guarded call failure isGuarded member isBrowser
      · cases impossible
      · cases impossible
    · obtain translated | ⟨page, fault, closes, same⟩ :=
        rest.guarded call failure isGuarded member isBrowser
      · exact Or.inl translated
      · exact Or.inr ⟨page, fault, List.mem_append_right _ closes, same⟩
  · rcases List.mem_append.mp member with member | member
    · cases first.bare call failure isBare member
    · exact rest.bare call failure isBare member

theorem Surfaces.of_error {trace : List Exchange} {failure : Failure}
    (first : Surfaces trace (.error failure : Except Failure α)) :
    Surfaces trace (.error failure : Except Failure β) where
  guarded call fault isGuarded member isBrowser := by
    obtain ⟨translated, same, translates⟩ | ⟨page, lost, closes, same⟩ :=
      first.guarded call fault isGuarded member isBrowser
    · exact Or.inl ⟨translated, congrArg Except.error (Except.error.inj same), translates⟩
    · exact Or.inr ⟨page, lost, closes, congrArg Except.error (Except.error.inj same)⟩
  bare call fault isBare member :=
    congrArg Except.error (Except.error.inj (first.bare call fault isBare member))
  foreign := first.foreign.of_error

/-- A call that is not guarded. -/
theorem surfaces_call {call : Call} {reply : Except Failure Value}
    (isBare : call.isGuarded = false) : Surfaces [⟨.browser call, reply⟩] reply where
  guarded other failure isGuarded member := by
    cases List.mem_singleton.mp member
    rw [isBare] at isGuarded
    cases isGuarded
  bare other failure _ member := by
    cases List.mem_singleton.mp member
    rfl
  foreign failure fails := by
    refine Or.inr ⟨_, List.mem_singleton_self _, ?_, fun _ => ?_⟩
    · rw [fails]
      rfl
    · rintro _ ⟨⟩
      exact isBare

end Actions

section Pages

variable {α : Type} {layer : Layer} {trace : List Exchange}

theorem ensuring_runs {action : Action α} {cleanup : Action Unit} {outcome : Except Failure α}
    (run : (action.ensuring cleanup).Runs trace outcome) :
    ∃ inside result late cleaned, action.Runs inside result ∧ cleanup.Runs late cleaned ∧
      trace = inside ++ late ∧ outcome = cleaned.bind fun _ => result := by
  unfold Action.ensuring at run
  rcases Action.runs_bind.mp run with ⟨inside, _, _, attempted, cleans, rfl⟩ | ⟨_, lost, -⟩
  · obtain ⟨_, ran, same⟩ := Action.runs_attempt.mp attempted
    cases same
    rcases Action.runs_bind.mp cleans with ⟨late, _, _, cleaned, ends, rfl⟩ | ⟨_, lost, rfl⟩
    · obtain ⟨rfl, rfl⟩ := Program.runs_done.mp ends
      rw [List.append_nil]
      exact ⟨inside, _, late, _, ran, cleaned, rfl, rfl⟩
    · exact ⟨inside, _, _, _, ran, lost, rfl, rfl⟩
  · obtain ⟨_, -, impossible⟩ := Action.runs_attempt.mp lost
    cases impossible

theorem openPage_runs (started : layer.started = true) {outcome : Except Failure PageId}
    (run : layer.openPage.Runs trace outcome) :
    ∃ reply, trace = [⟨.browser .newPage, reply⟩] ∧ outcome = reply.map numberOf := by
  have opens : layer.openPage = Action.browser .newPage >>= fun page => pure (numberOf page) := by
    unfold Layer.openPage Layer.requireContext
    rw [if_pos started]
    rfl
  rw [opens] at run
  rcases Action.runs_bind.mp run with ⟨_, page, _, opened, ends, rfl⟩ | ⟨failure, lost, rfl⟩
  · obtain rfl := Program.runs_request.mp opened
    obtain ⟨rfl, rfl⟩ := Action.runs_pure.mp ends
    exact ⟨_, rfl, rfl⟩
  · obtain rfl := Program.runs_request.mp lost
    exact ⟨_, rfl, rfl⟩

theorem closePage_runs {page : PageId} {outcome : Except Failure Unit}
    (run : (Action.browser (.closePage page) >>= fun _ => pure ()).Runs trace outcome) :
    ∃ reply, trace = [⟨.browser (.closePage page), reply⟩] ∧ outcome = reply.map fun _ => () := by
  rcases Action.runs_bind.mp run with ⟨_, _, _, closed, ends, rfl⟩ | ⟨failure, lost, rfl⟩
  · obtain rfl := Program.runs_request.mp closed
    obtain ⟨rfl, rfl⟩ := Action.runs_pure.mp ends
    exact ⟨_, rfl, rfl⟩
  · obtain rfl := Program.runs_request.mp lost
    exact ⟨_, rfl, rfl⟩

/-- A run on a page of its own: the browser has not been started, or no page could be opened, or a
page was opened, used, and closed at the end. A failure to close it takes the place of what the use
came to. -/
inductive Visited (layer : Layer) (body : PageId → Action α) :
    List Exchange → Except Failure α → Prop where
  | unstarted {failure : Failure} (stopped : layer.started = false) (own : failure.IsOwn) :
      Visited layer body [] (.error failure)
  | unopened (started : layer.started = true) (failure : Failure) :
      Visited layer body [⟨.browser .newPage, .error failure⟩] (.error failure)
  | opened (started : layer.started = true) {value : Value} {inside : List Exchange}
      {result : Except Failure α} (ran : (body (numberOf value)).Runs inside result)
      (closed : Except Failure Value) :
      Visited layer body
        (⟨.browser .newPage, .ok value⟩ ::
          (inside ++ [⟨.browser (.closePage (numberOf value)), closed⟩]))
        (closed.bind fun _ => result)

theorem withPage_visited {body : PageId → Action α} {outcome : Except Failure α}
    (run : (layer.withPage body).Runs trace outcome) : Visited layer body trace outcome := by
  unfold Layer.withPage at run
  cases started : layer.started with
  | false =>
      unfold Layer.openPage Layer.requireContext at run
      simp only [started, Bool.false_eq_true, if_false] at run
      obtain ⟨rfl, rfl⟩ := Program.runs_done.mp run
      exact .unstarted started ⟨rfl, rfl⟩
  | true =>
      rcases Action.runs_bind.mp run with ⟨_, page, _, opens, used, rfl⟩ | ⟨failure, lost, rfl⟩
      · obtain ⟨reply, rfl, same⟩ := openPage_runs started opens
        cases reply with
        | error => cases same
        | ok value =>
            cases same
            obtain ⟨inside, result, _, _, ran, cleans, rfl, rfl⟩ := ensuring_runs used
            obtain ⟨closed, rfl, rfl⟩ := closePage_runs cleans
            have whole := Visited.opened started ran closed
            cases closed with
            | ok => exact whole
            | error => exact whole
      · obtain ⟨reply, rfl, same⟩ := openPage_runs started lost
        cases reply with
        | ok => cases same
        | error fault =>
            cases same
            exact .unopened started failure

theorem Visited.surfaces {body : PageId → Action α} (translates : ∀ page, Translates (body page))
    {outcome : Except Failure α} (visited : Visited layer body trace outcome) :
    Surfaces trace outcome := by
  cases visited with
  | unstarted _ own =>
      refine .of_quiet (fun _ member => absurd member List.not_mem_nil) fun failure fails => ?_
      obtain rfl := Except.error.inj fails
      exact Or.inl own
  | unopened _ failure =>
      exact (surfaces_call rfl : Surfaces _ (.error failure : Except Failure Value)).of_error
  | @opened _ value inside result ran closed =>
      have used := translates _ inside result ran
      have opens : Surfaces [⟨.browser .newPage, .ok value⟩] (.ok value : Except Failure Value) :=
        surfaces_call rfl
      refine opens.append ⟨fun call failure isGuarded member isBrowser => ?_,
        fun call failure isBare member => ?_, fun failure fails => ?_⟩
      · rcases List.mem_append.mp member with inner | member
        · cases closed with
          | ok => exact Or.inl (used.caught call failure inner isBrowser)
          | error fault =>
              exact Or.inr ⟨_, fault, List.mem_append_right _ (List.mem_singleton_self _), rfl⟩
        · cases List.mem_singleton.mp member
          cases isGuarded
      · rcases List.mem_append.mp member with member | member
        · rw [used.guarded call _ member] at isBare
          cases isBare
        · cases List.mem_singleton.mp member
          rfl
      · cases closed with
        | ok => exact (used.foreign.mono fun _ => List.mem_append_left _) failure fails
        | error fault =>
            obtain rfl := Except.error.inj fails
            refine Or.inr
              ⟨_, List.mem_append_right _ (List.mem_singleton_self _), rfl, fun _ => ?_⟩
            rintro _ ⟨⟩
            rfl

theorem cookies_surfaces {urls : Value} {outcome : Except Failure Value}
    (run : (layer.cookies urls).Runs trace outcome) : Surfaces trace outcome := by
  unfold Layer.cookies Layer.requireContext at run
  cases started : layer.started with
  | false =>
      simp only [started, Bool.false_eq_true, if_false] at run
      obtain ⟨rfl, rfl⟩ := Program.runs_done.mp run
      refine .of_quiet (fun _ member => absurd member List.not_mem_nil) fun failure fails => ?_
      obtain rfl := Except.error.inj fails
      exact Or.inl ⟨rfl, rfl⟩
  | true =>
      simp only [started, if_true] at run
      obtain rfl := Program.runs_request.mp run
      exact surfaces_call rfl

end Pages

end Browser

end WebHarvest
