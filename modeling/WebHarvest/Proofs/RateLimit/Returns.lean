import WebHarvest.Proofs.RateLimit.Backlog

/-!
# When calls return

A call returns at the time of the last stamp that it was given. Nobody is let through a domain's
scope more often than its quota says. The global scope gives its stamp before the call waits for the
domain, so the returns keep to the global quota exactly when no call ever has to wait there: when
the global quota lets no more requests through within the window of a domain than the domain does.
-/

set_option autoImplicit false

namespace WebHarvest.RateLimit

/-- Whether a call has passed one of the scopes of its target. -/
def Waiting.hasPassed {τ : Type} (call : Waiting τ) (scope : Scope) : Bool :=
  decide (scope ∈ scopesOf call.target ∧ scope ∉ call.scopes)

/-- Each of some times, and of the times at which the counted calls are due, is one of the given
stamps, no two of them the same one. -/
def Covers {τ : Type} (given : List τ) (times : List τ) (waiting : List (Waiting τ))
    (counted : Waiting τ → Bool) : Prop :=
  ∀ chosen : τ → Bool,
    times.countP chosen + waiting.countP (fun call => counted call && chosen call.due) ≤
      given.countP chosen

namespace Covers

variable {τ : Type} {given times : List τ} {before after : List (Waiting τ)}
variable {call next : Waiting τ} {counted : Waiting τ → Bool}

theorem nil (counted : Waiting τ → Bool) : Covers given ([] : List τ) [] counted :=
  fun _ => Nat.zero_le _

theorem remove (covers : Covers given times (before ++ call :: after) counted) :
    Covers given times (before ++ after) counted := by
  intro chosen
  have count := covers chosen
  rw [List.countP_append, List.countP_cons] at count
  rw [List.countP_append]
  omega

theorem insert (covers : Covers given times (before ++ after) counted)
    (ignored : counted next = false) : Covers given times (before ++ next :: after) counted := by
  intro chosen
  have count := covers chosen
  rw [List.countP_append] at count
  rw [List.countP_append, List.countP_cons, ignored, Bool.false_and, if_neg Bool.false_ne_true]
  exact count

theorem enter (covers : Covers given times (before ++ after) counted) (next : Waiting τ) :
    Covers (given ++ [next.due]) times (before ++ next :: after) counted := by
  intro chosen
  have count := covers chosen
  rw [List.countP_append] at count
  rw [List.countP_append, List.countP_append, List.countP_cons, List.countP_singleton]
  cases counted next <;> cases chosen next.due <;> simp <;> omega

theorem depart (covers : Covers given times (before ++ call :: after) counted)
    (counts : counted call = true) :
    Covers given (times ++ [call.due]) (before ++ after) counted := by
  intro chosen
  have count := covers chosen
  rw [List.countP_append, List.countP_cons, counts, Bool.true_and] at count
  rw [List.countP_append, List.countP_append, List.countP_singleton]
  omega

theorem replace (covers : Covers given times (before ++ call :: after) counted)
    (same : counted next = counted call) (due : next.due = call.due) :
    Covers given times (before ++ next :: after) counted := by
  intro chosen
  have count := covers chosen
  rw [List.countP_append, List.countP_cons] at count ⊢
  rw [same, due]
  exact count

end Covers

/-- What is left to pass is everything, or only the scope of the target's domain. -/
theorem scopes_of_suffix {target : String} {scope : Scope} {rest : List Scope}
    (suffix : scope :: rest <:+ scopesOf target) :
    scope :: rest = scopesOf target ∨
      ∃ name, Url.host? target = some name ∧ scope :: rest = [.domain name] := by
  rcases List.suffix_cons_iff.mp suffix with whole | inner
  · exact Or.inl whole
  · cases host : Url.host? target with
    | none =>
        rw [host] at inner
        cases List.suffix_nil.mp inner
    | some name =>
        rw [host] at inner
        rcases List.suffix_cons_iff.mp inner with whole | inner
        · exact Or.inr ⟨name, rfl, whole⟩
        · cases List.suffix_nil.mp inner

namespace Queue

variable {τ : Type} [CommRing τ] [LinearOrder τ] [ExactScale τ]
variable {config : RateLimitConfig} {queue next : Queue τ}

/-- What calls still have to pass is the end of what they had to. -/
def Orderly (queue : Queue τ) : Prop :=
  ∀ call ∈ queue.waiting, call.scopes <:+ scopesOf call.target

/-- Each return, and each call that has passed a scope, has a stamp of its own at its time. -/
def Balanced (queue : Queue τ) (scope : Scope) : Prop :=
  Covers (stampsOf queue.stamps scope) (returnsOf queue.returns scope) queue.waiting
    (·.hasPassed scope)

/-- Each stamp of a domain, and each call that is about to ask for one, has a stamp of the global
scope of its own at its time. -/
def Admitted (queue : Queue τ) (name : String) : Prop :=
  Covers (stampsOf queue.stamps .global) (stampsOf queue.stamps (.domain name)) queue.waiting
    fun call => decide (call.scopes = [.domain name])

/-- Whoever has passed a scope and goes on finds room in the next one. -/
def Prompt (config : RateLimitConfig) (queue : Queue τ) (scope : Scope) : Prop :=
  ∀ call ∈ queue.waiting, call.hasPassed scope = true → call.due = queue.clock →
    ∀ other rest, call.scopes = other :: rest →
      Limiter.HasRoom config other (stampsOf queue.stamps other) queue.clock

theorem Step.orderly (step : Step config queue next) (orderly : queue.Orderly) : next.Orderly := by
  cases step with
  | arrive target =>
      intro call member
      rcases List.mem_append.mp member with old | new
      · exact orderly call old
      · obtain rfl := List.mem_singleton.mp new
        exact List.suffix_rfl
  | pass later forward punctual => exact orderly
  | @take earlier later target asked rest asks room =>
      rw [Orderly, asks] at orderly
      simp only [List.forall_mem_append, List.forall_mem_cons] at orderly
      obtain ⟨first, call, others⟩ := orderly
      simp only [Orderly, List.forall_mem_append, List.forall_mem_cons]
      exact ⟨first, (List.suffix_cons asked rest).trans call, others⟩
  | @wait earlier later target asked rest rate oldest counting asks limited counts full =>
      rw [Orderly, asks] at orderly
      simp only [List.forall_mem_append, List.forall_mem_cons] at orderly
      simp only [Orderly, List.forall_mem_append, List.forall_mem_cons]
      exact orderly
  | @finish earlier later target ended =>
      rw [Orderly, ended] at orderly
      simp only [List.forall_mem_append, List.forall_mem_cons] at orderly
      simp only [Orderly, List.forall_mem_append]
      exact ⟨orderly.1, orderly.2.2⟩
  | @leave earlier later call waits =>
      rw [Orderly, waits] at orderly
      simp only [List.forall_mem_append, List.forall_mem_cons] at orderly
      simp only [Orderly, List.forall_mem_append]
      exact ⟨orderly.1, orderly.2.2⟩

theorem not_room_of_full {scope : Scope} {rate : RateWindow} {stamps counting : List τ}
    {oldest now : τ} (limited : config.rate? scope = some rate)
    (counts : stamps.filter (fun stamp => decide (now - rate.length < stamp)) = oldest :: counting)
    (full : rate.requests ≤ (oldest :: counting).length) :
    ¬ Limiter.HasRoom config scope stamps now := by
  intro room
  have few := room rate limited
  rw [List.countP_eq_length_filter, counts] at few
  omega

theorem Step.balanced (step : Step config queue next) {scope : Scope}
    (balanced : queue.Balanced scope) (prompt : queue.Prompt config scope) :
    next.Balanced scope := by
  unfold Balanced at balanced ⊢
  cases step with
  | arrive target =>
      rw [← List.append_nil queue.waiting] at balanced
      exact balanced.insert (by simp [Waiting.hasPassed])
  | pass later forward punctual => exact balanced
  | @take before after target asked rest asks room =>
      rw [asks] at balanced
      by_cases own : scope = asked
      · subst own
        rw [stampsOf_append_self]
        exact balanced.remove.enter ⟨target, rest, queue.clock⟩
      · rw [stampsOf_append_of_ne _ own]
        exact balanced.replace (by simp [Waiting.hasPassed, own]) rfl
  | @wait before after target asked rest rate oldest counting asks limited counts full =>
      -- Nobody who has passed the scope is put off any more.
      have notPassed : (Waiting.mk target (asked :: rest) queue.clock).hasPassed scope = false := by
        by_contra passed
        have member : Waiting.mk target (asked :: rest) queue.clock ∈ queue.waiting := by
          rw [asks]
          exact List.mem_append_right _ List.mem_cons_self
        exact not_room_of_full limited counts full
          (prompt _ member (Bool.eq_true_of_not_eq_false passed) rfl asked rest rfl)
      rw [asks] at balanced
      exact balanced.remove.insert notPassed
  | @finish before after target ended =>
      rw [ended] at balanced
      by_cases passes : scope ∈ scopesOf target
      · rw [returnsOf_append_of_mem _ passes]
        exact balanced.depart (by simp [Waiting.hasPassed, passes])
      · rw [returnsOf_append_of_not_mem _ passes]
        exact balanced.remove
  | @leave before after call waits =>
      rw [waits] at balanced
      exact balanced.remove

theorem Step.admitted (step : Step config queue next) (orderly : queue.Orderly)
    (prompt : queue.Prompt config .global) {name : String} (admitted : queue.Admitted name) :
    next.Admitted name := by
  unfold Admitted at admitted ⊢
  cases step with
  | arrive target =>
      rw [← List.append_nil queue.waiting] at admitted
      exact admitted.insert (by simp [scopesOf])
  | pass later forward punctual => exact admitted
  | @take before after target asked rest asks room =>
      have member : Waiting.mk target (asked :: rest) queue.clock ∈ queue.waiting := by
        rw [asks]
        exact List.mem_append_right _ List.mem_cons_self
      rw [asks] at admitted
      rcases scopes_of_suffix (orderly _ member) with whole | ⟨other, -, last⟩
      · obtain ⟨rfl, -⟩ := List.cons.inj whole
        rw [stampsOf_append_self, stampsOf_append_of_ne _ (by simp)]
        exact admitted.remove.enter ⟨target, rest, queue.clock⟩
      · obtain ⟨rfl, rfl⟩ := List.cons.inj last
        rw [stampsOf_append_of_ne _ (by simp)]
        by_cases own : other = name
        · subst own
          rw [stampsOf_append_self]
          exact (admitted.depart (by simp)).insert (by simp)
        · rw [stampsOf_append_of_ne _ (by simpa using Ne.symm own)]
          exact admitted.replace (by simp [own]) rfl
  | @wait before after target asked rest rate oldest counting asks limited counts full =>
      -- Nobody who is about to ask the domain is put off.
      have notAbout : asked :: rest ≠ [.domain name] := by
        intro about
        have member : Waiting.mk target (asked :: rest) queue.clock ∈ queue.waiting := by
          rw [asks]
          exact List.mem_append_right _ List.mem_cons_self
        have passed : (Waiting.mk target (asked :: rest) queue.clock).hasPassed .global = true := by
          simp [Waiting.hasPassed, scopesOf, about]
        exact not_room_of_full limited counts full (prompt _ member passed rfl asked rest rfl)
      rw [asks] at admitted
      exact admitted.remove.insert (decide_eq_false notAbout)
  | @finish before after target ended =>
      rw [ended] at admitted
      exact admitted.remove
  | @leave before after call waits =>
      rw [waits] at admitted
      exact admitted.remove

theorem Run.orderly (run : Run config queue) : queue.Orderly := by
  induction run with
  | start clock => exact fun call member => by cases member
  | step _ step ih => exact step.orderly ih

/-- Nobody asks another scope after that of a domain. -/
theorem Orderly.prompt_domain (orderly : queue.Orderly) (name : String) :
    queue.Prompt config (.domain name) := by
  intro call member passed _ scope rest asks
  have isSuffix := orderly call member
  simp only [Waiting.hasPassed, asks, decide_eq_true_eq] at passed
  rw [asks] at isSuffix
  rcases scopes_of_suffix isSuffix with whole | ⟨other, host, last⟩
  · exact absurd passed.1 (whole ▸ passed.2)
  · have same : other = name := by
      rw [mem_scopesOf_domain, host] at passed
      exact Option.some.inj passed.1
    rw [last, same] at passed
    exact absurd List.mem_cons_self passed.2

theorem Run.balanced_domain (run : Run config queue) (name : String) :
    queue.Balanced (.domain name) := by
  induction run with
  | start clock => exact Covers.nil _
  | step run step ih => exact step.balanced ih (run.orderly.prompt_domain name)

section Laws

variable [IsStrictOrderedRing τ]

theorem Run.history (run : Run config queue) (positive : config.IsPositive) {scope : Scope}
    {rate : RateWindow} (limited : config.rate? scope = some rate) :
    (stampsOf queue.stamps scope).Pairwise (· ≤ ·) ∧
      (∀ stamp ∈ stampsOf queue.stamps scope, stamp ≤ queue.clock) ∧
      Spaced rate.requests rate.length (stampsOf queue.stamps scope) := by
  obtain ⟨crowd, crowdRun, shows⟩ := run.exists_crowd positive
  obtain ⟨window, -, quota, millis, kept⟩ := shows.kept.limited scope rate limited
  have spaced := kept.spaced
  rw [quota, SlidingWindow.length, millis, Int.cast_natCast] at spaced
  rw [shows.stamps, shows.clock]
  exact ⟨kept.sorted, kept.past, spaced⟩

/-- While the quota of a scope holds for what it gave, it holds for the returns. -/
theorem Balanced.returns_le {scope : Scope} {rate : RateWindow} (balanced : queue.Balanced scope)
    (run : Run config queue) (positive : config.IsPositive)
    (limited : config.rate? scope = some rate) (start : τ) :
    (returnsOf queue.returns scope).countP
      (fun time => decide (start ≤ time ∧ time < start + rate.length)) ≤ rate.requests := by
  obtain ⟨sorted, -, spaced⟩ := run.history positive limited
  have covered := balanced fun time => decide (start ≤ time ∧ time < start + rate.length)
  have few := spaced.interval_le sorted start
  omega

/-- When the window of a domain lasts no longer than the global quota takes to let through as many
requests, whoever has passed the global scope finds room at once. -/
theorem Run.prompt_global (run : Run config queue) (positive : config.IsPositive)
    {quota : RateWindow} (limited : config.global = some quota)
    (covers : ∀ rate, config.perDomain = some rate →
      rate.windowMs ≤ rate.requests / quota.requests * quota.windowMs)
    (admitted : ∀ name, queue.Admitted name) : queue.Prompt config .global := by
  intro call member passed due scope rest asks rate domainLimited
  have isSuffix := run.orderly call member
  simp only [Waiting.hasPassed, asks, decide_eq_true_eq] at passed
  rw [asks] at isSuffix
  rcases scopes_of_suffix isSuffix with whole | ⟨name, -, last⟩
  · exact absurd passed.1 (whole ▸ passed.2)
  obtain ⟨rfl, rfl⟩ := List.cons.inj last
  have globalLimited : config.rate? .global = some quota := limited
  obtain ⟨sorted, -, spaced⟩ := run.history positive globalLimited
  obtain ⟨-, past, -⟩ := run.history positive domainLimited
  let recent (time : τ) : Bool := decide (queue.clock - rate.length < time ∧ time ≤ queue.clock)
  have length : (0 : τ) < rate.length := RateWindow.length_pos (positive _ rate domainLimited).2
  have asking : 0 < queue.waiting.countP
      (fun call => decide (call.scopes = [.domain name]) && recent call.due) := by
    rw [List.countP_pos_iff]
    refine ⟨call, member, ?_⟩
    simp only [asks, due, recent, decide_true, Bool.true_and, decide_eq_true_eq]
    exact ⟨sub_lt_self _ length, le_rfl⟩
  have counted : (stampsOf queue.stamps (.domain name)).countP recent +
        queue.waiting.countP (fun call => decide (call.scopes = [.domain name]) &&
          recent call.due) ≤
      (stampsOf queue.stamps .global).countP recent := admitted name recent
  have all : (stampsOf queue.stamps (.domain name)).countP
        (fun stamp => decide (queue.clock - rate.length < stamp)) =
      (stampsOf queue.stamps (.domain name)).countP recent := by
    refine List.countP_congr fun stamp isStamp => ?_
    simp only [recent, decide_eq_true_eq, past stamp isStamp, and_true]
  have lasts : (rate.length : τ) ≤ (rate.requests / quota.requests : Nat) * quota.length :=
    (RateWindow.length_le_iff rate quota _).mpr (covers rate domainLimited)
  have fewer : (stampsOf queue.stamps .global).countP recent ≤
      rate.requests / quota.requests * quota.requests := by
    refine le_trans (List.countP_mono_left fun stamp _ isRecent => ?_)
      (spaced.recent_le sorted _ queue.clock)
    obtain ⟨after, before⟩ := of_decide_eq_true isRecent
    exact decide_eq_true ⟨lt_of_le_of_lt (sub_le_sub_left lasts _) after, before⟩
  have quotas := Nat.div_mul_le_self rate.requests quota.requests
  omega

theorem Run.admitted (run : Run config queue) (positive : config.IsPositive)
    {quota : RateWindow} (limited : config.global = some quota)
    (covers : ∀ rate, config.perDomain = some rate →
      rate.windowMs ≤ rate.requests / quota.requests * quota.windowMs) (name : String) :
    queue.Admitted name := by
  induction run generalizing name with
  | start clock => exact Covers.nil _
  | step run step ih =>
      exact step.admitted run.orderly (run.prompt_global positive limited covers ih) (ih name)

theorem Run.balanced_global (run : Run config queue) (positive : config.IsPositive)
    {quota : RateWindow} (limited : config.global = some quota)
    (covers : ∀ rate, config.perDomain = some rate →
      rate.windowMs ≤ rate.requests / quota.requests * quota.windowMs) :
    queue.Balanced .global := by
  induction run with
  | start clock => exact Covers.nil _
  | step run step ih =>
      exact step.balanced ih
        (run.prompt_global positive limited covers (run.admitted positive limited covers))

end Laws

end Queue

namespace Crowd

variable {τ : Type} [CommRing τ] [LinearOrder τ] [IsStrictOrderedRing τ] [ExactScale τ]

/-- The calls that return within the length of the global window are never more than its quota,
exactly when the window of a domain lasts no longer than the global quota takes to let through as
many requests. The quota of a domain always holds for the calls that return for it. -/
theorem returns_le_iff {config : RateLimitConfig} (positive : config.IsPositive) :
    (∀ quota, config.global = some quota →
      ((∀ crowd : Crowd τ, Run config .exact crowd → ∀ start,
          (returnsOf crowd.returns .global).countP
            (fun time => decide (start ≤ time ∧ time < start + quota.length)) ≤ quota.requests) ↔
        ∀ rate, config.perDomain = some rate →
          rate.windowMs ≤ rate.requests / quota.requests * quota.windowMs)) ∧
    ∀ rate, config.perDomain = some rate →
      ∀ crowd : Crowd τ, Run config .exact crowd → ∀ name start,
        (returnsOf crowd.returns (.domain name)).countP
          (fun time => decide (start ≤ time ∧ time < start + rate.length)) ≤ rate.requests := by
  refine ⟨fun quota limited => ⟨fun law rate domainLimited => ?_, fun covers crowd run start => ?_⟩,
    fun rate limited crowd run name start => ?_⟩
  · by_contra short
    have host : Url.host? "http://a/" = some "a" := by decide +kernel
    have hostless : Url.host? "" = none := by decide
    obtain ⟨queue, queueRun, more⟩ := Queue.Run.exceeds (τ := τ) positive host hostless limited
      domainLimited (not_le.mp short)
    obtain ⟨crowd, run, shows⟩ := queueRun.exists_crowd positive
    rw [shows.returns] at more
    exact absurd (law crowd run rate.length) (not_le.mpr more)
  · obtain ⟨queue, queueRun, shows⟩ := Queue.Run.of_crowd positive run
    have balanced := queueRun.balanced_global positive limited covers
    have few := balanced.returns_le queueRun positive
      (show config.rate? .global = some quota from limited) start
    rwa [shows.returns] at few
  · obtain ⟨queue, queueRun, shows⟩ := Queue.Run.of_crowd positive run
    have few := (queueRun.balanced_domain name).returns_le queueRun positive
      (show config.rate? (.domain name) = some rate from limited) start
    rwa [shows.returns] at few

/-- With one request in a tenth of a second, and one for each domain in a fifth, two calls can
return within a tenth of a second. -/
theorem returns_le_iff_fifth :
    let config : RateLimitConfig := { global := some ⟨1, 100⟩, perDomain := some ⟨1, 200⟩ }
    ¬ ∀ crowd : Crowd Int, Run config .exact crowd → ∀ start,
      (returnsOf crowd.returns .global).countP
        (fun time => decide (start ≤ time ∧ time < start + 100000)) ≤ 1 := by
  intro config law
  have positive : config.IsPositive := by
    intro scope rate limited
    cases scope with
    | global => cases limited; decide
    | domain name => cases limited; decide
  have short := (((returns_le_iff positive).1 ⟨1, 100⟩ rfl).mp law) ⟨1, 200⟩ rfl
  exact absurd short (by decide)

end Crowd

end WebHarvest.RateLimit
