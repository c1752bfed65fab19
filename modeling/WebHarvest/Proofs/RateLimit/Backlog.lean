import WebHarvest.Proofs.RateLimit.Queue

/-!
# Calls that return late

A domain can hold back a call that has its global stamp already. When it is let through at last, the
global scope no longer counts that stamp, and lets as many others through as if nobody had waited.
-/

set_option autoImplicit false

namespace WebHarvest.RateLimit.Queue

variable {τ : Type} [CommRing τ] [LinearOrder τ] [ExactScale τ]
variable {config : RateLimitConfig} {queue : Queue τ}

/-- Another queue at the same time, in which so many calls for a target came and returned. -/
structure Called (queue next : Queue τ) (target : String) (calls : Nat) : Prop where
  clock : next.clock = queue.clock
  idle : next.waiting = []
  returns : next.returns = queue.returns ++ List.replicate calls (target, queue.clock)
  stamps : ∀ scope, stampsOf next.stamps scope =
    stampsOf queue.stamps scope ++
      if scope ∈ scopesOf target then List.replicate calls queue.clock else []

theorem scopesOf_nodup (target : String) : (scopesOf target).Nodup := by
  rw [scopesOf]
  cases Url.host? target <;> simp

theorem Run.pass_scopes (run : Run config queue) {target : String} {scopes : List Scope}
    (waits : queue.waiting = [⟨target, scopes, queue.clock⟩]) (distinct : scopes.Nodup)
    (room : ∀ scope ∈ scopes,
      Limiter.HasRoom config scope (stampsOf queue.stamps scope) queue.clock) :
    ∃ next, Run config next ∧ next.clock = queue.clock ∧
      next.waiting = [⟨target, [], queue.clock⟩] ∧ next.returns = queue.returns ∧
      ∀ scope, stampsOf next.stamps scope =
        stampsOf queue.stamps scope ++ if scope ∈ scopes then [queue.clock] else [] := by
  induction scopes generalizing queue with
  | nil => exact ⟨queue, run, rfl, waits, rfl, fun scope => by simp⟩
  | cons first rest ih =>
      obtain ⟨notLater, restDistinct⟩ := List.nodup_cons.mp distinct
      have taken := run.step (.take [] [] waits (room first List.mem_cons_self))
      obtain ⟨next, nextRun, clock, waiting, returns, stamps⟩ := ih taken rfl restDistinct (by
        intro scope member
        have differs : scope ≠ first := by
          rintro rfl
          exact notLater member
        rw [stampsOf_append_of_ne _ differs]
        exact room scope (List.mem_cons_of_mem first member))
      refine ⟨next, nextRun, clock, waiting, returns, fun scope => ?_⟩
      rw [stamps]
      by_cases same : scope = first
      · subst same
        rw [stampsOf_append_self, if_neg notLater, if_pos List.mem_cons_self, List.append_nil]
      · rw [stampsOf_append_of_ne _ same]
        simp [same]

theorem Run.call (run : Run config queue) (idle : queue.waiting = []) (target : String)
    (room : ∀ scope ∈ scopesOf target,
      Limiter.HasRoom config scope (stampsOf queue.stamps scope) queue.clock) :
    ∃ next, Run config next ∧ queue.Called next target 1 := by
  have arrived := run.step (.arrive target)
  rw [idle, List.nil_append] at arrived
  obtain ⟨next, nextRun, clock, waiting, returns, stamps⟩ :=
    arrived.pass_scopes rfl (scopesOf_nodup target) room
  have ended := nextRun.step (.finish [] [] (by rw [waiting, clock]; rfl))
  refine ⟨_, ended, clock, rfl, ?_, stamps⟩
  rw [returns, clock]
  rfl

theorem Run.calls (run : Run config queue) (idle : queue.waiting = []) (target : String)
    (calls : Nat)
    (room : ∀ scope ∈ scopesOf target, ∀ rate, config.rate? scope = some rate →
      (stampsOf queue.stamps scope).countP
        (fun stamp => decide (queue.clock - rate.length < stamp)) + calls ≤ rate.requests) :
    ∃ next, Run config next ∧ queue.Called next target calls := by
  induction calls with
  | zero => exact ⟨queue, run, rfl, idle, by simp, fun scope => by simp⟩
  | succ calls ih =>
      obtain ⟨before, beforeRun, called⟩ := ih fun scope member rate limited =>
        Nat.le_of_succ_le (room scope member rate limited)
      obtain ⟨next, nextRun, calledAgain⟩ := beforeRun.call called.idle target (by
        intro scope member rate limited
        have few := room scope member rate limited
        have added := List.countP_le_length (l := List.replicate calls queue.clock)
          (p := fun stamp => decide (queue.clock - rate.length < stamp))
        rw [List.length_replicate] at added
        rw [called.stamps, if_pos member, called.clock, List.countP_append]
        omega)
      refine ⟨next, nextRun, calledAgain.clock.trans called.clock, calledAgain.idle, ?_, ?_⟩
      · rw [calledAgain.returns, called.returns, called.clock, List.append_assoc,
          List.replicate_append_replicate]
      · intro scope
        rw [calledAgain.stamps, called.stamps, called.clock, List.append_assoc]
        by_cases member : scope ∈ scopesOf target
        · rw [if_pos member, if_pos member, if_pos member, List.replicate_append_replicate]
        · rw [if_neg member, if_neg member, if_neg member, List.append_nil]

/-- A queue in which nobody waits, no global stamp counts, and a domain was given a number of
stamps, the first of them at the time zero. -/
structure Filled (queue : Queue τ) (quota : RateWindow) (name : String) (count : Nat) : Prop where
  idle : queue.waiting = []
  quiet : ∀ stamp ∈ stampsOf queue.stamps .global, stamp + quota.length ≤ queue.clock
  count : (stampsOf queue.stamps (.domain name)).length = count
  nonneg : ∀ stamp ∈ stampsOf queue.stamps (.domain name), 0 ≤ stamp
  first : ∀ stamp ∈ (stampsOf queue.stamps (.domain name)).head?, stamp = 0

section Delay

variable [IsStrictOrderedRing τ]
variable {quota rate : RateWindow} {target name : String} {count : Nat}

omit [ExactScale τ] in
theorem countP_quiet {stamps : List τ} {now length : τ}
    (quiet : ∀ stamp ∈ stamps, stamp + length ≤ now) :
    stamps.countP (fun stamp => decide (now - length < stamp)) = 0 := by
  rw [List.countP_eq_zero]
  intro stamp member counts
  have early := quiet stamp member
  have late := of_decide_eq_true counts
  linarith

/-- Calls for the domain come through while neither quota is used up. -/
theorem Run.fill (run : Run config queue) (filled : queue.Filled quota name count)
    (host : Url.host? target = some name) (limited : config.global = some quota)
    (domainLimited : config.perDomain = some rate) (calls : Nat) (few : calls ≤ quota.requests)
    (room : count + calls ≤ rate.requests) :
    ∃ next, Run config next ∧ queue.Called next target calls := by
  refine run.calls filled.idle target calls fun scope member other otherLimited => ?_
  cases scope with
  | global =>
      obtain rfl : quota = other := Option.some.inj (limited.symm.trans otherLimited)
      rw [countP_quiet filled.quiet, Nat.zero_add]
      exact few
  | domain asked =>
      obtain rfl : rate = other := Option.some.inj (domainLimited.symm.trans otherLimited)
      obtain rfl : name = asked := by
        rw [mem_scopesOf_domain, host] at member
        exact Option.some.inj member
      have counted := List.countP_le_length (l := stampsOf queue.stamps (.domain name))
        (p := fun stamp => decide (queue.clock - rate.length < stamp))
      rw [filled.count] at counted
      omega

theorem Filled.called (filled : queue.Filled quota name count)
    (host : Url.host? target = some name) {calls : Nat} {next : Queue τ}
    (called : queue.Called next target calls) (nonneg : 0 ≤ queue.clock)
    (begins : count = 0 → queue.clock = 0) {later : τ}
    (forward : queue.clock + quota.length ≤ later) :
    Filled { next with clock := later } quota name (count + calls) := by
  have length := RateWindow.length_nonneg (τ := τ) quota
  have global := called.stamps .global
  have domain := called.stamps (.domain name)
  rw [if_pos (mem_scopesOf_global target)] at global
  rw [if_pos (mem_scopesOf_domain.mpr host)] at domain
  refine ⟨called.idle, ?_, ?_, ?_, ?_⟩
  · intro stamp member
    change stamp + quota.length ≤ later
    change stamp ∈ stampsOf next.stamps .global at member
    rw [global] at member
    rcases List.mem_append.mp member with old | new
    · have early := filled.quiet stamp old
      linarith
    · rw [List.eq_of_mem_replicate new]
      exact forward
  · change (stampsOf next.stamps (.domain name)).length = count + calls
    rw [domain, List.length_append, List.length_replicate, filled.count]
  · intro stamp member
    change stamp ∈ stampsOf next.stamps (.domain name) at member
    rw [domain] at member
    rcases List.mem_append.mp member with old | new
    · exact filled.nonneg stamp old
    · rw [List.eq_of_mem_replicate new]
      exact nonneg
  · intro stamp isFirst
    change stamp ∈ (stampsOf next.stamps (.domain name)).head? at isFirst
    have counted := filled.count
    have begun := filled.first
    rw [domain] at isFirst
    cases held : stampsOf queue.stamps (.domain name) with
    | nil =>
        rw [held] at counted isFirst
        rw [List.nil_append] at isFirst
        rw [List.eq_of_mem_replicate (List.mem_of_mem_head? isFirst)]
        exact begins counted.symm
    | cons oldest others =>
        rw [held] at begun isFirst
        exact begun stamp isFirst

theorem rounds_start {clock : τ} {rounds : Nat} (positive : 0 < quota.requests)
    (same : clock = rounds * quota.length) :
    0 ≤ clock ∧ (rounds * quota.requests = 0 → clock = 0) := by
  subst same
  refine ⟨mul_nonneg (Nat.cast_nonneg _) (RateWindow.length_nonneg quota), fun none => ?_⟩
  rcases Nat.mul_eq_zero.mp none with rfl | none
  · rw [Nat.cast_zero, zero_mul]
  · exact absurd none (Nat.ne_of_gt positive)

/-- As long as the domain's quota is not used up, the global quota can be used up in each of its
windows. -/
theorem Run.rounds (host : Url.host? target = some name) (limited : config.global = some quota)
    (domainLimited : config.perDomain = some rate) (positive : 0 < quota.requests) (rounds : Nat)
    (room : rounds * quota.requests ≤ rate.requests) :
    ∃ queue : Queue τ, Run config queue ∧ queue.clock = rounds * quota.length ∧
      queue.Filled quota name (rounds * quota.requests) := by
  induction rounds with
  | zero =>
      refine ⟨⟨0, [], [], []⟩, .start 0, by simp, rfl, ?_, by simp [stampsOf], ?_, ?_⟩
      · exact fun stamp member => by cases member
      · exact fun stamp member => by cases member
      · exact fun stamp member => by cases member
  | succ rounds ih =>
      rw [Nat.succ_mul] at room ⊢
      obtain ⟨queue, run, clock, filled⟩ := ih (by omega)
      have length := RateWindow.length_nonneg (τ := τ) quota
      obtain ⟨start, begins⟩ := rounds_start positive clock
      obtain ⟨next, nextRun, called⟩ :=
        run.fill filled host limited domainLimited quota.requests le_rfl room
      have forward : next.clock ≤ queue.clock + quota.length := by
        rw [called.clock]
        linarith
      have passed := nextRun.step (.pass (queue.clock + quota.length) forward (by
        rw [called.idle]
        exact fun call member => by cases member))
      refine ⟨_, passed, ?_, filled.called host called start begins le_rfl⟩
      rw [clock, Nat.cast_succ, add_one_mul]

/-- A queue in which nobody waits, the global scope has room, and the quota of a domain is used up
since the time zero. -/
structure Full (queue : Queue τ) (quota rate : RateWindow) (name : String) : Prop where
  idle : queue.waiting = []
  past : ∀ stamp ∈ stampsOf queue.stamps .global, stamp ≤ queue.clock
  room : (stampsOf queue.stamps .global).countP
    (fun stamp => decide (queue.clock - quota.length < stamp)) < quota.requests
  held : ∃ others, stampsOf queue.stamps (.domain name) = 0 :: others ∧
    others.length + 1 = rate.requests ∧ ∀ stamp ∈ others, 0 ≤ stamp

theorem Run.exists_full (positive : config.IsPositive) (host : Url.host? target = some name)
    (limited : config.global = some quota) (domainLimited : config.perDomain = some rate) :
    ∃ queue : Queue τ, Run config queue ∧
      queue.clock = (rate.requests / quota.requests : Nat) * quota.length ∧
      queue.Full quota rate name := by
  have some := (positive .global quota limited).1
  have whole := Nat.div_add_mod' rate.requests quota.requests
  have rest := Nat.mod_lt rate.requests some
  obtain ⟨queue, run, clock, filled⟩ := Run.rounds (τ := τ) host limited domainLimited some
    (rate.requests / quota.requests) (by omega)
  have length := RateWindow.length_nonneg (τ := τ) quota
  obtain ⟨start, begins⟩ := rounds_start some clock
  obtain ⟨next, nextRun, called⟩ := run.fill filled host limited domainLimited
    (rate.requests % quota.requests) (by omega) (by omega)
  have after := filled.called host called start begins le_rfl
  have global := called.stamps .global
  rw [if_pos (mem_scopesOf_global target)] at global
  refine ⟨next, nextRun, called.clock.trans clock, called.idle, ?_, ?_, ?_⟩
  · intro stamp member
    rw [called.clock]
    rw [global] at member
    rcases List.mem_append.mp member with old | new
    · have early := filled.quiet stamp old
      linarith
    · exact le_of_eq (List.eq_of_mem_replicate new)
  · have added := List.countP_le_length
      (l := List.replicate (rate.requests % quota.requests) queue.clock)
      (p := fun stamp => decide (queue.clock - quota.length < stamp))
    rw [List.length_replicate] at added
    rw [global, called.clock, List.countP_append, countP_quiet filled.quiet]
    omega
  · have count := after.count
    have nonneg := after.nonneg
    have first := after.first
    change (stampsOf next.stamps (.domain name)).length = _ at count
    change ∀ stamp ∈ stampsOf next.stamps (.domain name), 0 ≤ stamp at nonneg
    change ∀ stamp ∈ (stampsOf next.stamps (.domain name)).head?, stamp = 0 at first
    cases held : stampsOf next.stamps (.domain name) with
    | nil =>
        have used := (positive (.domain name) rate domainLimited).1
        rw [held, List.length_nil] at count
        omega
    | cons oldest others =>
        rw [held] at count nonneg first
        obtain rfl : oldest = 0 := first oldest rfl
        rw [List.length_cons] at count
        exact ⟨others, rfl, by omega, fun stamp member =>
          nonneg stamp (List.mem_cons_of_mem _ member)⟩

/-- A call that has its global stamp waits until the domain's oldest stamp stops counting. -/
theorem Full.late (full : queue.Full quota rate name) (run : Run config queue)
    (host : Url.host? target = some name) (limited : config.global = some quota)
    (domainLimited : config.perDomain = some rate) (outlasts : queue.clock < rate.length) :
    ∃ next, Run config next ∧ next.clock = rate.length ∧ next.waiting = [] ∧
      next.returns = queue.returns ++ [(target, rate.length)] ∧
      ∀ stamp ∈ stampsOf next.stamps .global, stamp ≤ queue.clock := by
  obtain ⟨others, held, many, nonneg⟩ := full.held
  have scopes : scopesOf target = [.global, .domain name] := by
    rw [scopesOf, host]
    rfl
  have called := run.step (.arrive target)
  rw [full.idle, List.nil_append, scopes] at called
  have admitted := called.step (.take [] [] rfl (by
    intro other otherLimited
    obtain rfl : quota = other := Option.some.inj (limited.symm.trans otherLimited)
    exact full.room))
  have untouched : stampsOf (queue.stamps ++ [(.global, queue.clock)]) (.domain name) =
      0 :: others := by
    rw [stampsOf_append_of_ne _ (by simp), held]
  have counts : (stampsOf (queue.stamps ++ [(.global, queue.clock)]) (.domain name)).filter
      (fun stamp => decide (queue.clock - rate.length < stamp)) = 0 :: others := by
    rw [untouched, List.filter_eq_self]
    intro stamp member
    have late : 0 ≤ stamp := by
      rcases List.mem_cons.mp member with rfl | member
      · exact le_rfl
      · exact nonneg stamp member
    exact decide_eq_true (by linarith)
  have waits := admitted.step (.wait [] [] rfl domainLimited counts (by
    rw [List.length_cons]
    omega))
  have passed := waits.step (.pass rate.length (le_of_lt outlasts) (by
    intro call member
    obtain rfl := List.mem_singleton.mp member
    exact le_of_eq (zero_add _).symm))
  have released := passed.step (.take [] [] (by rw [zero_add]) (by
    intro other otherLimited
    obtain rfl : rate = other := Option.some.inj (domainLimited.symm.trans otherLimited)
    have few := List.countP_le_length (l := others)
      (p := fun stamp => decide (rate.length - rate.length < stamp))
    change (stampsOf (queue.stamps ++ [(.global, queue.clock)]) (.domain name)).countP
      (fun stamp => decide (rate.length - rate.length < stamp)) < rate.requests
    rw [untouched, List.countP_cons_of_neg (by simp)]
    omega))
  have returned := released.step (.finish [] [] rfl)
  refine ⟨_, returned, rfl, rfl, rfl, ?_⟩
  intro stamp member
  rw [stampsOf_append_of_ne _ (by simp), stampsOf_append_self]
    at member
  rcases List.mem_append.mp member with old | new
  · exact full.past stamp old
  · exact le_of_eq (List.mem_singleton.mp new)

/-- When the window of a domain lasts longer than the global quota takes to let through as many
requests, more calls than that quota can return within its window. -/
theorem Run.exceeds (positive : config.IsPositive) {other : String}
    (host : Url.host? target = some name) (hostless : Url.host? other = none)
    (limited : config.global = some quota) (domainLimited : config.perDomain = some rate)
    (outlasts : rate.requests / quota.requests * quota.windowMs < rate.windowMs) :
    ∃ queue : Queue τ, Run config queue ∧
      quota.requests < (returnsOf queue.returns .global).countP
        (fun time => decide (rate.length ≤ time ∧ time < rate.length + quota.length)) := by
  have length : (0 : τ) < quota.length :=
    RateWindow.length_pos (positive .global quota limited).2
  obtain ⟨queue, run, clock, full⟩ :=
    Run.exists_full (τ := τ) positive host limited domainLimited
  have before : queue.clock < rate.length := by
    rw [clock]
    exact not_le.mp fun covers => absurd ((RateWindow.length_le_iff rate quota _).mp covers)
      (not_le.mpr outlasts)
  obtain ⟨next, nextRun, nextClock, idle, returns, past⟩ :=
    full.late run host limited domainLimited before
  let later := max rate.length (queue.clock + quota.length)
  have forward : next.clock ≤ later := nextClock ▸ le_max_left _ _
  have passed := nextRun.step (.pass later forward (by
    rw [idle]
    exact fun call member => by cases member))
  obtain ⟨last, lastRun, called⟩ := passed.calls idle other quota.requests (by
    intro scope member asked askedLimited
    obtain rfl : scope = .global := by
      simpa [scopesOf, hostless] using member
    obtain rfl : quota = asked := Option.some.inj (limited.symm.trans askedLimited)
    rw [countP_quiet, Nat.zero_add]
    intro stamp member
    calc stamp + quota.length ≤ queue.clock + quota.length := by
          have early := past stamp member
          linarith
      _ ≤ later := le_max_right _ _)
  refine ⟨last, lastRun, ?_⟩
  have within : later < rate.length + quota.length :=
    max_lt (lt_add_of_pos_right _ length) (by linarith)
  rw [returnsOf_global, called.returns, returns, List.map_append, List.map_append,
    List.map_replicate, List.countP_append, List.countP_append, List.countP_replicate]
  have first : rate.length ≤ later := le_max_left _ _
  have nonempty : (rate.length : τ) < rate.length + quota.length := lt_add_of_pos_right _ length
  simp [first, within, nonempty]

end Delay

end WebHarvest.RateLimit.Queue
