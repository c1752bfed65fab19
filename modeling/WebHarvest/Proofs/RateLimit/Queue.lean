import WebHarvest.Proofs.RateLimit.Callers

/-!
# Callers with an exact clock

When the clock is exact, a crowd is a queue: what a caller does next follows from the scopes that it
still has to pass and from the stamps of all scopes. A queue has no windows and no programs, so the
times at which calls return are counted there.
-/

set_option autoImplicit false

namespace WebHarvest.RateLimit

/-- A call that still has to pass some scopes, and when it goes on. -/
structure Waiting (τ : Type) where
  target : String
  scopes : List Scope
  due : τ

def Waiting.caller {τ : Type} (waiting : Waiting τ) : Caller τ :=
  ⟨waiting.target, passing waiting.target waiting.scopes, waiting.due⟩

/-- The calls that wait, and all stamps and returns so far. -/
structure Queue (τ : Type) where
  clock : τ
  waiting : List (Waiting τ) := []
  stamps : List (Scope × τ) := []
  returns : List (String × τ) := []

namespace Queue

variable {τ : Type} [CommRing τ] [LinearOrder τ] [ExactScale τ]

/-- One step of a queue. A call goes on at the very time at which it is due. -/
inductive Step (config : RateLimitConfig) : Queue τ → Queue τ → Prop where
  | arrive {queue : Queue τ} (target : String) :
      Step config queue
        { queue with waiting := queue.waiting ++ [⟨target, scopesOf target, queue.clock⟩] }
  | pass {queue : Queue τ} (later : τ) (forward : queue.clock ≤ later)
      (punctual : ∀ call ∈ queue.waiting, later ≤ call.due) :
      Step config queue { queue with clock := later }
  | take {queue : Queue τ} (before after : List (Waiting τ)) {target : String} {scope : Scope}
      {rest : List Scope}
      (asks : queue.waiting = before ++ ⟨target, scope :: rest, queue.clock⟩ :: after)
      (room : Limiter.HasRoom config scope (stampsOf queue.stamps scope) queue.clock) :
      Step config queue
        { queue with
          waiting := before ++ ⟨target, rest, queue.clock⟩ :: after
          stamps := queue.stamps ++ [(scope, queue.clock)] }
  | wait {queue : Queue τ} (before after : List (Waiting τ)) {target : String} {scope : Scope}
      {rest : List Scope} {rate : RateWindow} {oldest : τ} {counting : List τ}
      (asks : queue.waiting = before ++ ⟨target, scope :: rest, queue.clock⟩ :: after)
      (limited : config.rate? scope = some rate)
      (counts : (stampsOf queue.stamps scope).filter
        (fun stamp => decide (queue.clock - rate.length < stamp)) = oldest :: counting)
      (full : rate.requests ≤ (oldest :: counting).length) :
      Step config queue
        { queue with
          waiting := before ++ ⟨target, scope :: rest, oldest + rate.length⟩ :: after }
  | finish {queue : Queue τ} (before after : List (Waiting τ)) {target : String}
      (ended : queue.waiting = before ++ ⟨target, [], queue.clock⟩ :: after) :
      Step config queue
        { queue with
          waiting := before ++ after
          returns := queue.returns ++ [(target, queue.clock)] }
  | leave {queue : Queue τ} (before after : List (Waiting τ)) {call : Waiting τ}
      (waits : queue.waiting = before ++ call :: after) :
      Step config queue { queue with waiting := before ++ after }

/-- The queues that a configuration can lead to. -/
inductive Run (config : RateLimitConfig) : Queue τ → Prop where
  | start (clock : τ) : Run config ⟨clock, [], [], []⟩
  | step {queue next : Queue τ} (run : Run config queue) (step : Step config queue next) :
      Run config next

/-- Whether a queue shows what there is to a crowd. -/
structure Shows (config : RateLimitConfig) (queue : Queue τ) (crowd : Crowd τ) : Prop where
  clock : queue.clock = crowd.clock
  callers : crowd.callers = queue.waiting.map Waiting.caller
  stamps : queue.stamps = crowd.stamps
  returns : queue.returns = crowd.returns
  kept : crowd.Kept config

theorem waiting_of_callers {τ : Type} {waiting : List (Waiting τ)} {before after : List (Caller τ)}
    {target : String} {program : Program (Except Failure Unit)} {due : τ}
    (split : waiting.map Waiting.caller = before ++ ⟨target, program, due⟩ :: after) :
    ∃ earlier scopes later, waiting = earlier ++ ⟨target, scopes, due⟩ :: later ∧
      earlier.map Waiting.caller = before ∧ passing target scopes = program ∧
      later.map Waiting.caller = after := by
  obtain ⟨earlier, others, whole, first, second⟩ := List.map_eq_append_iff.mp split
  obtain ⟨⟨itsTarget, scopes, itsDue⟩, later, parts, isCaller, last⟩ :=
    List.map_eq_cons_iff.mp second
  simp only [Waiting.caller, Caller.mk.injEq] at isCaller
  obtain ⟨rfl, asks, rfl⟩ := isCaller
  exact ⟨earlier, scopes, later, by rw [whole, parts], first, asks, last⟩

theorem callers_of_waiting {τ : Type} {callers : List (Caller τ)} {waiting : List (Waiting τ)}
    {before after : List (Waiting τ)} {target : String} {scopes : List Scope} {due : τ}
    {program : Program (Except Failure Unit)} (shown : callers = waiting.map Waiting.caller)
    (split : waiting = before ++ ⟨target, scopes, due⟩ :: after)
    (asks : passing target scopes = program) :
    callers = before.map Waiting.caller ++ ⟨target, program, due⟩ ::
      after.map Waiting.caller := by
  rw [shown, split, List.map_append, List.map_cons, Waiting.caller, asks]

section Simulation

variable [IsStrictOrderedRing τ]
variable {config : RateLimitConfig} {queue : Queue τ} {crowd : Crowd τ}

/-- What a crowd does at exact times, its queue does. -/
theorem Shows.follow (shows : Shows config queue crowd) (positive : config.IsPositive)
    {next : Crowd τ} (step : crowd.Step .exact next) :
    ∃ following, Step config queue following ∧ Shows config following next := by
  have kept := step.kept positive shows.kept
  obtain ⟨clock, waiting, stamps, returns⟩ := queue
  obtain ⟨rfl, callers, rfl, rfl, holds⟩ := shows
  cases step with
  | arrive target =>
      refine ⟨_, .arrive target, rfl, ?_, rfl, rfl, kept⟩
      simp only [callers, List.map_append, List.map_cons, List.map_nil, Waiting.caller,
        acquire_run]
  | pass later forward punctual =>
      refine ⟨_, .pass later forward fun call member => ?_, rfl, callers, rfl, rfl, kept⟩
      have isCaller : call.caller ∈ crowd.callers := by
        rw [callers]
        exact List.mem_map_of_mem member
      exact punctual rfl call.caller isCaller
  | take before after checked recorded asks forward onward punctual granted =>
      obtain ⟨rfl, rfl⟩ := punctual rfl
      obtain rfl : checked = crowd.clock := le_antisymm onward forward
      rw [callers] at asks
      obtain ⟨earlier, scopes, later, whole, rfl, asking, rfl⟩ := waiting_of_callers asks
      obtain ⟨rest, rfl, rfl, goesOn⟩ := passing_ask asking
      refine ⟨_, .take earlier later whole (holds.granted positive le_rfl granted).1, rfl, ?_, rfl,
        rfl, kept⟩
      simp only [List.map_append, List.map_cons, Waiting.caller, goesOn]
  | wait before after checked asks forward punctual refused =>
      obtain ⟨rfl, rfl⟩ := punctual rfl
      rw [callers] at asks
      obtain ⟨earlier, scopes, later, whole, rfl, asking, rfl⟩ := waiting_of_callers asks
      obtain ⟨rest, rfl, rfl, -⟩ := passing_ask asking
      obtain ⟨rate, oldest, counting, limited, counts, full, rfl, -⟩ :=
        holds.refused positive le_rfl refused
      refine ⟨_, .wait earlier later whole limited counts full, rfl, ?_, rfl, rfl, kept⟩
      simp only [List.map_append, List.map_cons, Waiting.caller, asking, ExactScale.plus_eq,
        add_sub_cancel]
  | finish before after ended punctual =>
      obtain rfl := punctual rfl
      rw [callers] at ended
      obtain ⟨earlier, scopes, later, whole, rfl, done, rfl⟩ := waiting_of_callers ended
      obtain rfl := passing_done done
      exact ⟨_, .finish earlier later whole, rfl, (List.map_append ..).symm, rfl, rfl, kept⟩
  | leave before after waits =>
      rw [callers] at waits
      obtain ⟨earlier, scopes, later, whole, rfl, -, rfl⟩ := waiting_of_callers waits
      exact ⟨_, .leave earlier later whole, rfl, (List.map_append ..).symm, rfl, rfl, kept⟩

/-- What a queue does, its crowd can do at exact times. -/
theorem Shows.lead (shows : Shows config queue crowd) (positive : config.IsPositive)
    {following : Queue τ} (step : Step config queue following) :
    ∃ next, crowd.Step .exact next ∧ Shows config following next := by
  obtain ⟨clock, waiting, stamps, returns⟩ := queue
  obtain ⟨rfl, callers, rfl, rfl, holds⟩ := shows
  cases step with
  | arrive target =>
      refine ⟨_, .arrive target, rfl, ?_, rfl, rfl, holds⟩
      simp only [callers, List.map_append, List.map_cons, List.map_nil, Waiting.caller,
        acquire_run]
  | pass later forward punctual =>
      refine ⟨_, .pass later forward fun _ caller member => ?_, rfl, callers, rfl, rfl,
        holds.later forward⟩
      rw [callers] at member
      obtain ⟨call, isCall, rfl⟩ := List.mem_map.mp member
      exact punctual call isCall
  | @take before after target scope rest asks room =>
      obtain ⟨limiter, granted, kept⟩ := holds.poll_of_room room le_rfl
      obtain ⟨goesOn, shape, passes, -⟩ := passing_cons target scope rest
      have asking := callers_of_waiting callers asks shape
      refine ⟨_, .take _ _ crowd.clock crowd.clock asking le_rfl le_rfl (fun _ => ⟨rfl, rfl⟩)
        granted, rfl, ?_, rfl, rfl, ?_⟩
      · simp only [List.map_append, List.map_cons, Waiting.caller, passes]
      · rw [Crowd.Kept, stampsOf_append]
        exact kept
  | @wait before after target scope rest rate oldest counting asks limited counts full =>
      have count : rate.requests ≤ (stampsOf crowd.stamps scope).countP
          (fun stamp => decide (crowd.clock - rate.length < stamp)) := by
        rw [List.countP_eq_length_filter, counts]
        exact full
      obtain ⟨limiter, first, others, parts, refused, kept⟩ :=
        holds.poll_of_full limited (positive scope rate limited).1 count crowd.clock
      obtain ⟨rfl, rfl⟩ := List.cons.inj (counts.symm.trans parts)
      obtain ⟨goesOn, shape, -⟩ := passing_cons target scope rest
      have asking := callers_of_waiting callers asks shape
      refine ⟨_, .wait _ _ crowd.clock asking le_rfl (fun _ => ⟨rfl, rfl⟩) refused, rfl, ?_, rfl,
        rfl, kept⟩
      simp only [List.map_append, List.map_cons, Waiting.caller, shape, ExactScale.plus_eq,
        add_sub_cancel]
  | @finish before after target ended =>
      exact ⟨_, .finish _ _ (callers_of_waiting callers ended (passing_nil target)) fun _ => rfl,
        rfl, (List.map_append ..).symm, rfl, rfl, holds⟩
  | @leave before after call waits =>
      exact ⟨_, .leave _ _ (callers_of_waiting callers waits rfl), rfl,
        (List.map_append ..).symm, rfl, rfl, holds⟩

theorem Run.of_crowd (positive : config.IsPositive) (run : crowd.Run config .exact) :
    ∃ queue, Run config queue ∧ Shows config queue crowd := by
  induction run with
  | start clock =>
      exact ⟨⟨clock, [], [], []⟩, .start clock,
        ⟨rfl, rfl, rfl, rfl, Limiter.Keeps.ofConfig config clock⟩⟩
  | step _ step ih =>
      obtain ⟨queue, run, shows⟩ := ih
      obtain ⟨following, queueStep, follows⟩ := shows.follow positive step
      exact ⟨following, run.step queueStep, follows⟩

theorem Run.exists_crowd (positive : config.IsPositive) (run : Run config queue) :
    ∃ crowd : Crowd τ, Crowd.Run config .exact crowd ∧ Shows config queue crowd := by
  induction run with
  | start clock =>
      exact ⟨⟨clock, .ofConfig (some config), [], [], []⟩, .start clock,
        ⟨rfl, rfl, rfl, rfl, Limiter.Keeps.ofConfig config clock⟩⟩
  | step _ step ih =>
      obtain ⟨crowd, run, shows⟩ := ih
      obtain ⟨next, crowdStep, follows⟩ := shows.lead positive step
      exact ⟨next, run.step crowdStep, follows⟩

end Simulation

end Queue

end WebHarvest.RateLimit
