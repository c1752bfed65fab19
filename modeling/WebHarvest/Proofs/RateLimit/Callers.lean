import WebHarvest.Batch
import WebHarvest.Proofs.RateLimit.Limiter

/-!
# Callers of a limiter

Any number of callers acquire targets from one limiter, in any order. A caller comes to rest only
where its program asks for a slot; what happens between two such requests of the callers is a step.
The clock never goes back. With loose timing a pause may end early or late, and time may pass
between the two readings of the clock; with exact timing pauses end when they are over, and nothing
else takes time.
-/

set_option autoImplicit false

namespace WebHarvest.RateLimit

/-- How far the clock can be relied on. -/
inductive Timing where
  | loose
  | exact

theorem mem_scopesOf_global (target : String) : Scope.global ∈ scopesOf target :=
  List.mem_cons_self

theorem mem_scopesOf_domain {target name : String} :
    Scope.domain name ∈ scopesOf target ↔ Url.host? target = some name := by
  simp [scopesOf]

/-- The program that passes some scopes in turn. -/
def passing (target : String) (scopes : List Scope) : Program (Except Failure Unit) :=
  (scopes.forM fun scope => Action.takeSlot scope target).run

theorem acquire_run (target : String) :
    (acquire target).run = passing target (scopesOf target) := rfl

theorem passing_nil (target : String) : passing target [] = .done (.ok ()) := rfl

theorem passing_cons (target : String) (scope : Scope) (scopes : List Scope) :
    ∃ next : Except Failure Unit → Program (Except Failure Unit),
      passing target (scope :: scopes) = .ask (.takeSlot scope target) next ∧
        next (.ok ()) = passing target scopes ∧
        ∀ failure, next (.error failure) = .done (.error failure) :=
  ⟨_, rfl, rfl, fun _ => rfl⟩

/-- A program that asks for a slot has that scope first among those it still has to pass. -/
theorem passing_ask {target asked : String} {scopes : List Scope} {scope : Scope}
    {next : Except Failure Unit → Program (Except Failure Unit)}
    (asks : passing target scopes = .ask (.takeSlot scope asked) next) :
    ∃ rest, scopes = scope :: rest ∧ asked = target ∧ next (.ok ()) = passing target rest := by
  cases scopes with
  | nil => cases asks
  | cons first rest =>
      obtain ⟨goesOn, shape, passes, -⟩ := passing_cons target first rest
      rw [shape] at asks
      cases asks
      exact ⟨rest, rfl, rfl, passes⟩

theorem passing_done {target : String} {scopes : List Scope} {result : Except Failure Unit}
    (ended : passing target scopes = .done result) : scopes = [] := by
  cases scopes with
  | nil => rfl
  | cons first rest => cases ended

/-- A call that has not returned: how it goes on, and when. -/
structure Caller (τ : Type) where
  target : String
  program : Program (Except Failure Unit)
  due : τ

/-- A limiter with its callers. `stamps` holds the times that the scopes were ever given, and
`returns` the times at which calls returned, both in the order in which they came. -/
structure Crowd (τ : Type) where
  clock : τ
  limiter : Limiter τ
  callers : List (Caller τ) := []
  stamps : List (Scope × τ) := []
  returns : List (String × τ) := []

/-- The stamps of one scope among those of all. -/
def stampsOf {τ : Type} (stamps : List (Scope × τ)) (scope : Scope) : List τ :=
  (stamps.filter (·.1 = scope)).map (·.2)

/-- The times of the returns for targets that have to pass a scope. -/
def returnsOf {τ : Type} (returns : List (String × τ)) (scope : Scope) : List τ :=
  (returns.filter fun call => decide (scope ∈ scopesOf call.1)).map (·.2)

theorem returnsOf_global {τ : Type} (returns : List (String × τ)) :
    returnsOf returns .global = returns.map (·.2) := by
  rw [returnsOf, List.filter_eq_self.mpr fun call _ => decide_eq_true (mem_scopesOf_global call.1)]

theorem stampsOf_append_self {τ : Type} (stamps : List (Scope × τ)) (scope : Scope) (time : τ) :
    stampsOf (stamps ++ [(scope, time)]) scope = stampsOf stamps scope ++ [time] := by
  simp [stampsOf]

theorem stampsOf_append_of_ne {τ : Type} (stamps : List (Scope × τ)) {scope other : Scope}
    (differs : other ≠ scope) (time : τ) :
    stampsOf (stamps ++ [(scope, time)]) other = stampsOf stamps other := by
  simp [stampsOf, Ne.symm differs]

theorem stampsOf_append {τ : Type} (stamps : List (Scope × τ)) (scope : Scope) (time : τ) :
    stampsOf (stamps ++ [(scope, time)]) =
      Function.update (stampsOf stamps) scope (stampsOf stamps scope ++ [time]) := by
  funext other
  by_cases same : other = scope
  · subst same
    rw [Function.update_self, stampsOf_append_self]
  · rw [Function.update_of_ne same, stampsOf_append_of_ne stamps same]

theorem returnsOf_append_of_mem {τ : Type} (returns : List (String × τ)) {scope : Scope}
    {target : String} (passes : scope ∈ scopesOf target) (time : τ) :
    returnsOf (returns ++ [(target, time)]) scope = returnsOf returns scope ++ [time] := by
  simp [returnsOf, passes]

theorem returnsOf_append_of_not_mem {τ : Type} (returns : List (String × τ)) {scope : Scope}
    {target : String} (passes : scope ∉ scopesOf target) (time : τ) :
    returnsOf (returns ++ [(target, time)]) scope = returnsOf returns scope := by
  simp [returnsOf, passes]

namespace Crowd

/-- One step of one caller, or of the clock. -/
inductive Step {τ : Type} [LinearOrder τ] [TimeScale τ] (timing : Timing) :
    Crowd τ → Crowd τ → Prop where
  | arrive {crowd : Crowd τ} (target : String) :
      Step timing crowd
        { crowd with
          callers := crowd.callers ++ [⟨target, (acquire target).run, crowd.clock⟩] }
  | pass {crowd : Crowd τ} (later : τ) (forward : crowd.clock ≤ later)
      (punctual : timing = .exact → ∀ caller ∈ crowd.callers, later ≤ caller.due) :
      Step timing crowd { crowd with clock := later }
  /-- A scope has a slot: the clock is read once to find this out, and once more to record it. -/
  | take {crowd : Crowd τ} (before after : List (Caller τ)) (checked recorded : τ)
      {target asked : String} {scope : Scope} {due : τ} {limiter : Limiter τ}
      {next : Except Failure Unit → Program (Except Failure Unit)}
      (asks : crowd.callers = before ++ ⟨target, .ask (.takeSlot scope asked) next, due⟩ :: after)
      (forward : crowd.clock ≤ checked) (onward : checked ≤ recorded)
      (punctual : timing = .exact → due = crowd.clock ∧ recorded = crowd.clock)
      (granted : crowd.limiter.poll scope checked recorded = (limiter, .ok none)) :
      Step timing crowd
        { clock := recorded, limiter
          callers := before ++ ⟨target, next (.ok ()), recorded⟩ :: after
          stamps := crowd.stamps ++ [(scope, recorded)]
          returns := crowd.returns }
  /-- A scope has no slot: it is asked again after the delay. -/
  | wait {crowd : Crowd τ} (before after : List (Caller τ)) (checked : τ) {target asked : String}
      {scope : Scope} {due delay : τ} {limiter : Limiter τ}
      {next : Except Failure Unit → Program (Except Failure Unit)}
      (asks : crowd.callers = before ++ ⟨target, .ask (.takeSlot scope asked) next, due⟩ :: after)
      (forward : crowd.clock ≤ checked)
      (punctual : timing = .exact → due = crowd.clock ∧ checked = crowd.clock)
      (refused : crowd.limiter.poll scope checked checked = (limiter, .ok (some delay))) :
      Step timing crowd
        { crowd with
          clock := checked, limiter
          callers := before ++ ⟨target, .ask (.takeSlot scope asked) next,
            TimeScale.plus checked delay⟩ :: after }
  | finish {crowd : Crowd τ} (before after : List (Caller τ)) {target : String} {due : τ}
      (ended : crowd.callers = before ++ ⟨target, .done (.ok ()), due⟩ :: after)
      (punctual : timing = .exact → due = crowd.clock) :
      Step timing crowd
        { crowd with
          callers := before ++ after
          returns := crowd.returns ++ [(target, crowd.clock)] }
  /-- A caller is given up, or fails to announce that it has to wait. -/
  | leave {crowd : Crowd τ} (before after : List (Caller τ)) {caller : Caller τ}
      (waits : crowd.callers = before ++ caller :: after) :
      Step timing crowd { crowd with callers := before ++ after }

/-- The crowds that a limiter of a configuration can come to have. -/
inductive Run {τ : Type} [LinearOrder τ] [TimeScale τ] (config : RateLimitConfig)
    (timing : Timing) : Crowd τ → Prop where
  | start (clock : τ) : Run config timing ⟨clock, .ofConfig (some config), [], [], []⟩
  | step {crowd next : Crowd τ} (run : Run config timing crowd) (step : Step timing crowd next) :
      Run config timing next

section Stamps

variable {τ : Type} [CommRing τ] [LinearOrder τ] [IsStrictOrderedRing τ] [ExactScale τ]
variable {config : RateLimitConfig} {timing : Timing} {crowd : Crowd τ}

/-- What the limiter of a crowd knows of all stamps. -/
def Kept (config : RateLimitConfig) (crowd : Crowd τ) : Prop :=
  crowd.limiter.Keeps config (stampsOf crowd.stamps) crowd.clock

theorem Step.kept (positive : config.IsPositive) {next : Crowd τ} (step : Step timing crowd next)
    (kept : crowd.Kept config) : next.Kept config := by
  cases step with
  | arrive target => exact kept
  | pass later forward _ => exact kept.later forward
  | take before after checked recorded _ forward onward _ granted =>
      obtain ⟨-, held⟩ := (kept.later forward).granted positive onward granted
      rw [Kept, stampsOf_append]
      exact held
  | wait before after checked _ forward _ refused =>
      obtain ⟨_, _, _, -, -, -, -, held⟩ := (kept.later forward).refused positive le_rfl refused
      exact held
  | finish before after _ _ => exact kept
  | leave before after _ => exact kept

theorem Run.kept (positive : config.IsPositive) (run : Run config timing crowd) :
    crowd.Kept config := by
  induction run with
  | start clock => exact Limiter.Keeps.ofConfig config clock
  | step _ step ih => exact step.kept positive ih

/-- What a scope holds is the sorted end of all its stamps and no longer than its quota, and of all
its stamps no more than the quota lie in any interval of the window's length. -/
theorem Run.stamps_spaced (positive : config.IsPositive) (run : Run config timing crowd)
    {scope : Scope} {rate : RateWindow} (limited : config.rate? scope = some rate) :
    (∃ window, crowd.limiter.windowOf scope = some window ∧
      window.stamps.Pairwise (· ≤ ·) ∧ window.stamps.length ≤ rate.requests ∧
      window.stamps <:+ stampsOf crowd.stamps scope) ∧
    (stampsOf crowd.stamps scope).Pairwise (· ≤ ·) ∧
    Spaced rate.requests rate.length (stampsOf crowd.stamps scope) ∧
    ∀ start, (stampsOf crowd.stamps scope).countP
      (fun stamp => decide (start ≤ stamp ∧ stamp < start + rate.length)) ≤ rate.requests := by
  obtain ⟨window, present, quota, millis, kept⟩ := (run.kept positive).limited scope rate limited
  obtain ⟨dropped, split, -⟩ := kept.held
  have spaced : Spaced rate.requests rate.length (stampsOf crowd.stamps scope) := by
    have spaced := kept.spaced
    rwa [quota, SlidingWindow.length, millis, Int.cast_natCast] at spaced
  refine ⟨⟨window, present, ?_, ?_, ?_⟩, kept.sorted, spaced, spaced.interval_le kept.sorted⟩
  · have sorted := kept.sorted
    rw [split] at sorted
    exact (List.pairwise_append.mp sorted).2.1
  · rw [← quota]
    exact kept.within
  · exact ⟨dropped, split.symm⟩

/-- A sleep that ends too early changes nothing: the scope is asked again until it has a slot. -/
theorem Run.stamps_spaced_early :
    let config : RateLimitConfig := { global := some ⟨1, 100⟩ }
    ∃ crowd : Crowd Int, Run config .loose crowd ∧ stampsOf crowd.stamps .global = [0, 100500] ∧
      Spaced 1 100000 (stampsOf crowd.stamps .global) := by
  intro config
  have positive : config.IsPositive := by
    intro scope rate limited
    cases scope with
    | global => cases limited; decide
    | domain name => cases limited
  have opened : Run config .loose (⟨0, .ofConfig (some config), [], [], []⟩ : Crowd Int) :=
    .start 0
  have called := opened.step (.arrive "")
  have taken := called.step (.take [] [] 0 0 rfl le_rfl le_rfl nofun rfl)
  have returned := taken.step (.finish [] [] rfl nofun)
  have calledAgain := returned.step (.arrive "")
  have waits := calledAgain.step (.wait [] [] 40000 rfl (by decide) nofun rfl)
  have waitsAgain := waits.step (.wait [] [] 99000 rfl (by decide) nofun rfl)
  have takenAgain := waitsAgain.step
    (.take [] [] 100000 100500 rfl (by decide) (by decide) nofun rfl)
  have limited : config.rate? .global = some ⟨1, 100⟩ := rfl
  exact ⟨_, takenAgain, rfl, (takenAgain.stamps_spaced positive limited).2.2.1⟩

end Stamps

end Crowd

end WebHarvest.RateLimit
