import Mathlib.Logic.Function.Basic
import WebHarvest.Proofs.RateLimit.Window
import WebHarvest.RateLimit.Limiter

/-!
# What a limiter keeps

Every scope of a limiter has a window of its own, whether or not it has been asked before. To ask a
scope is to ask its window; the windows of the other scopes stay as they are.
-/

set_option autoImplicit false

namespace WebHarvest.RateLimit

def RateLimitConfig.rate? (config : RateLimitConfig) : Scope → Option RateWindow
  | .global => config.global
  | .domain _ => config.perDomain

/-- Windows can be made for the quotas of a configuration. -/
def RateLimitConfig.IsPositive (config : RateLimitConfig) : Prop :=
  ∀ scope rate, config.rate? scope = some rate → 0 < rate.requests ∧ 0 < rate.windowMs

/-- Only a window of positive length that lets some request through can be made. -/
theorem RateWindow.ofQuota_iff {τ : Type} (rate : RateWindow) :
    (SlidingWindow.ofQuota rate.requests rate.windowMs : Except Failure (SlidingWindow τ)) =
        .ok rate.window ↔
      0 < rate.requests ∧ 0 < rate.windowMs := by
  rw [SlidingWindow.ofQuota]
  by_cases positive : 0 < rate.requests ∧ 0 < rate.windowMs
  · rw [if_neg (by simp; omega)]
    exact ⟨fun _ => positive, fun _ => rfl⟩
  · rw [if_pos (by simp; omega)]
    exact ⟨nofun, fun holds => absurd holds positive⟩

def RateWindow.length {τ : Type} [CommRing τ] [LinearOrder τ] [ExactScale τ] (rate : RateWindow) :
    τ :=
  rate.windowMs * ExactScale.unit

theorem RateWindow.length_of_millis {τ : Type} [CommRing τ] [LinearOrder τ] [ExactScale τ]
    (rate : RateWindow) {window : SlidingWindow τ} (millis : window.windowMs = rate.windowMs) :
    window.length = rate.length := by
  rw [SlidingWindow.length, millis, length, Int.cast_natCast]

section Length

variable {τ : Type} [CommRing τ] [LinearOrder τ] [IsStrictOrderedRing τ] [ExactScale τ]

theorem RateWindow.length_pos {rate : RateWindow} (positive : 0 < rate.windowMs) :
    0 < (rate.length : τ) :=
  mul_pos (Nat.cast_pos.mpr positive) ExactScale.unit_pos

theorem RateWindow.length_nonneg (rate : RateWindow) : 0 ≤ (rate.length : τ) :=
  mul_nonneg (Nat.cast_nonneg _) (le_of_lt ExactScale.unit_pos)

theorem RateWindow.length_le_iff (rate quota : RateWindow) (times : Nat) :
    (rate.length : τ) ≤ times * quota.length ↔ rate.windowMs ≤ times * quota.windowMs := by
  have product : (times : τ) * quota.length = (times * quota.windowMs : Nat) * ExactScale.unit := by
    rw [length, Nat.cast_mul, mul_assoc]
  rw [product, length, mul_le_mul_iff_left₀ ExactScale.unit_pos, Nat.cast_le]

end Length

namespace Limiter

section Windows

variable {τ : Type}

/-- The window that a scope has when it is asked. -/
def windowOf (limiter : Limiter τ) : Scope → Option (SlidingWindow τ)
  | .global => limiter.global
  | .domain name =>
      (limiter.window? (.domain name)).or (limiter.perDomain.map RateWindow.window)

def ensure (limiter : Limiter τ) : Scope → Limiter τ
  | .global => limiter
  | .domain name => limiter.ensureDomain name

theorem find?_domain_append (domains : List (String × SlidingWindow τ)) (name other : String)
    (window : SlidingWindow τ) :
    ((domains ++ [(name, window)]).find? (·.1 == other)).map (·.2) =
      ((domains.find? (·.1 == other)).map (·.2)).or
        (if name = other then some window else none) := by
  rw [List.find?_append]
  cases domains.find? (·.1 == other) with
  | some found => rfl
  | none =>
      by_cases same : name = other
      · simp [same]
      · simp [same]

theorem ensure_windowOf (limiter : Limiter τ) (scope : Scope) :
    (limiter.ensure scope).windowOf = limiter.windowOf := by
  cases scope with
  | global => rfl
  | domain name =>
      funext other
      rw [ensure, ensureDomain]
      cases quota : limiter.perDomain with
      | none => rfl
      | some rate =>
          by_cases known : limiter.domains.any (·.1 == name) = true
          · simp only [known, if_true]
          · simp only [known, if_false, Bool.false_eq_true]
            cases other with
            | global => rfl
            | domain other =>
                rw [windowOf, windowOf, window?, window?, find?_domain_append, quota]
                by_cases same : name = other
                · simp [same]
                · simp [same]

theorem ensure_window? (limiter : Limiter τ) (scope : Scope) :
    (limiter.ensure scope).window? scope = limiter.windowOf scope := by
  cases scope with
  | global => rfl
  | domain name =>
      rw [ensure, ensureDomain, windowOf]
      cases quota : limiter.perDomain with
      | none => simp
      | some rate =>
          by_cases known : limiter.domains.any (·.1 == name) = true
          · obtain ⟨entry, member, named⟩ := List.any_eq_true.mp known
            have found : (limiter.domains.find? (·.1 == name)).isSome = true :=
              List.find?_isSome.mpr ⟨entry, member, named⟩
            obtain ⟨entry, found⟩ := Option.isSome_iff_exists.mp found
            simp only [known, if_true, window?, found, Option.map_some, Option.some_or]
          · simp only [known, if_false, Bool.false_eq_true]
            rw [window?, window?, find?_domain_append]
            simp

theorem setWindow_windowOf {limiter : Limiter τ} {scope : Scope} {old : SlidingWindow τ}
    (present : limiter.window? scope = some old) (window : SlidingWindow τ) :
    (limiter.setWindow window scope).windowOf =
      Function.update limiter.windowOf scope (some window) := by
  funext other
  cases scope with
  | global =>
      cases other with
      | global => rw [Function.update_self, setWindow, windowOf]
      | domain name => rw [Function.update_of_ne (by simp)]; rfl
  | domain name =>
      cases other with
      | global => rw [Function.update_of_ne (by simp)]; rfl
      | domain other =>
          have named : (fun entry : String × SlidingWindow τ =>
              (if entry.1 == name then (entry.1, window) else (entry.1, entry.2)).1 == other) =
                fun entry => entry.1 == other := by
            funext entry
            by_cases own : entry.1 == name <;> simp [own]
          have entries : (limiter.setWindow window (.domain name)).window? (.domain other) =
              ((limiter.domains.find? (·.1 == other)).map fun entry =>
                (if entry.1 == name then (entry.1, window) else (entry.1, entry.2)).2) := by
            rw [setWindow, window?, List.find?_map, Option.map_map]
            exact congrArg (fun found => (limiter.domains.find? found).map _) named
          by_cases same : other = name
          · subst same
            rw [Function.update_self, windowOf, entries]
            obtain ⟨entry, found, -⟩ := Option.map_eq_some_iff.mp present
            have isNamed : entry.1 = other := by simpa using List.find?_some found
            simp [found, isNamed]
          · have differs : Scope.domain other ≠ Scope.domain name := by simpa using same
            rw [Function.update_of_ne differs, windowOf, windowOf, entries, window?]
            cases found : limiter.domains.find? (·.1 == other) with
            | none => rfl
            | some entry =>
                have isNamed : entry.1 = other := by simpa using List.find?_some found
                simp [isNamed, same]

variable [TimeScale τ]

theorem poll_eq (limiter : Limiter τ) (scope : Scope) (checked recorded : τ) :
    limiter.poll scope checked recorded =
      match (limiter.ensure scope).window? scope with
      | none => (limiter.ensure scope, .ok none)
      | some window =>
          match window.poll checked recorded with
          | .error failure => (limiter.ensure scope, .error failure)
          | .ok (window, delay) => ((limiter.ensure scope).setWindow window scope, .ok delay) := by
  cases scope <;> rfl

theorem poll_of_unlimited {limiter : Limiter τ} {scope : Scope}
    (unlimited : limiter.windowOf scope = none) (checked recorded : τ) :
    limiter.poll scope checked recorded = (limiter.ensure scope, .ok none) := by
  rw [poll_eq, ensure_window?, unlimited]

theorem poll_of_window {limiter : Limiter τ} {scope : Scope} {window asked : SlidingWindow τ}
    {checked recorded : τ} {delay : Option τ} (limited : limiter.windowOf scope = some window)
    (polled : window.poll checked recorded = .ok (asked, delay)) :
    ∃ next, limiter.poll scope checked recorded = (next, .ok delay) ∧
      next.windowOf = Function.update limiter.windowOf scope (some asked) := by
  have present : (limiter.ensure scope).window? scope = some window := by
    rw [ensure_window?, limited]
  refine ⟨(limiter.ensure scope).setWindow asked scope, ?_, ?_⟩
  · rw [poll_eq, present]
    simp only [polled]
  · rw [setWindow_windowOf present, ensure_windowOf]

end Windows

section History

variable {τ : Type} [CommRing τ] [LinearOrder τ] [ExactScale τ]

/-- Whether a scope lets a request through at a time, given all its stamps so far. -/
def HasRoom (config : RateLimitConfig) (scope : Scope) (history : List τ) (now : τ) : Prop :=
  ∀ rate, config.rate? scope = some rate →
    history.countP (fun stamp => decide (now - rate.length < stamp)) < rate.requests

/-- What a limiter knows at a time of all the stamps that its scopes were ever given. -/
structure Keeps (config : RateLimitConfig) (limiter : Limiter τ) (history : Scope → List τ)
    (now : τ) : Prop where
  limited : ∀ scope rate, config.rate? scope = some rate →
    ∃ window, limiter.windowOf scope = some window ∧ window.quota = rate.requests ∧
      window.windowMs = rate.windowMs ∧ window.Keeps (history scope) now
  unlimited : ∀ scope, config.rate? scope = none → limiter.windowOf scope = none

namespace Keeps

variable {config : RateLimitConfig} {limiter : Limiter τ} {history : Scope → List τ} {now : τ}

theorem ofConfig (config : RateLimitConfig) (now : τ) :
    Keeps config (Limiter.ofConfig (some config)) (fun _ => []) now where
  limited scope rate limited := by
    refine ⟨rate.window, ?_, rfl, rfl, SlidingWindow.Keeps.new _ _ now⟩
    cases scope with
    | global => simp only [Limiter.ofConfig, windowOf, show config.global = some rate from limited,
        Option.map_some]
    | domain name => simp only [Limiter.ofConfig, windowOf, window?, List.find?_nil,
        show config.perDomain = some rate from limited, Option.map_some, Option.map_none,
        Option.none_or]
  unlimited scope free := by
    cases scope with
    | global => simp only [Limiter.ofConfig, windowOf, show config.global = none from free,
        Option.map_none]
    | domain name => simp only [Limiter.ofConfig, windowOf, window?, List.find?_nil,
        show config.perDomain = none from free, Option.map_none, Option.none_or]

theorem update {next : Limiter τ} {after : τ} (keeps : Keeps config limiter history now)
    [IsStrictOrderedRing τ] (ordered : now ≤ after) {scope : Scope} {rate : RateWindow}
    (limited : config.rate? scope = some rate) {window : SlidingWindow τ} {stamps : List τ}
    (kept : window.Keeps stamps after) (quota : window.quota = rate.requests)
    (millis : window.windowMs = rate.windowMs)
    (replaced : next.windowOf = Function.update limiter.windowOf scope (some window)) :
    Keeps config next (Function.update history scope stamps) after where
  limited other otherRate otherLimited := by
    rw [replaced]
    by_cases same : other = scope
    · subst same
      obtain rfl : rate = otherRate := Option.some.inj (limited.symm.trans otherLimited)
      rw [Function.update_self, Function.update_self]
      exact ⟨window, rfl, quota, millis, kept⟩
    · rw [Function.update_of_ne same, Function.update_of_ne same]
      obtain ⟨held, present, heldQuota, heldMillis, heldKept⟩ :=
        keeps.limited other otherRate otherLimited
      exact ⟨held, present, heldQuota, heldMillis, heldKept.later ordered⟩
  unlimited other free := by
    have differs : other ≠ scope := by
      rintro rfl
      exact absurd (limited.symm.trans free) (by simp)
    rw [replaced, Function.update_of_ne differs]
    exact keeps.unlimited other free

theorem later [IsStrictOrderedRing τ] (keeps : Keeps config limiter history now) {after : τ}
    (ordered : now ≤ after) : Keeps config limiter history after where
  limited scope rate limited := by
    obtain ⟨window, present, quota, millis, kept⟩ := keeps.limited scope rate limited
    exact ⟨window, present, quota, millis, kept.later ordered⟩
  unlimited := keeps.unlimited

theorem counting_eq {scope : Scope} {rate : RateWindow} {window : SlidingWindow τ}
    (millis : window.windowMs = rate.windowMs) (kept : window.Keeps (history scope) now) :
    window.counting now =
      (history scope).filter fun stamp => decide (now - rate.length < stamp) := by
  rw [kept.counting_eq_filter, rate.length_of_millis millis]

/-- While there is room, a request is let through and its time is kept. -/
theorem poll_of_room [IsStrictOrderedRing τ] (keeps : Keeps config limiter history now)
    {scope : Scope} (room : HasRoom config scope (history scope) now) {recorded : τ}
    (ordered : now ≤ recorded) :
    ∃ next, limiter.poll scope now recorded = (next, .ok none) ∧
      Keeps config next (Function.update history scope (history scope ++ [recorded])) recorded := by
  cases quota : config.rate? scope with
  | none =>
      refine ⟨limiter.ensure scope, poll_of_unlimited (keeps.unlimited scope quota) _ _, ?_, ?_⟩
      · intro other rate limited
        have differs : other ≠ scope := by
          rintro rfl
          exact absurd (limited.symm.trans quota) (by simp)
        rw [ensure_windowOf, Function.update_of_ne differs]
        exact (keeps.later ordered).limited other rate limited
      · rw [ensure_windowOf]
        exact keeps.unlimited
  | some rate =>
      obtain ⟨window, present, windowQuota, millis, kept⟩ := keeps.limited scope rate quota
      have free : (window.counting now).length < window.quota := by
        rw [counting_eq millis kept, windowQuota, ← List.countP_eq_length_filter]
        exact room rate quota
      obtain ⟨next, polled, replaced⟩ :=
        poll_of_window present (SlidingWindow.poll_of_room free recorded)
      exact ⟨next, polled,
        keeps.update ordered quota (kept.recorded free ordered) windowQuota millis replaced⟩

/-- In a full scope a request has to wait until the oldest stamp that counts stops counting. -/
theorem poll_of_full [IsStrictOrderedRing τ] (keeps : Keeps config limiter history now)
    {scope : Scope} {rate : RateWindow} (limited : config.rate? scope = some rate)
    (positive : 0 < rate.requests)
    (full : rate.requests ≤
      (history scope).countP (fun stamp => decide (now - rate.length < stamp))) (recorded : τ) :
    ∃ next oldest rest,
      (history scope).filter (fun stamp => decide (now - rate.length < stamp)) = oldest :: rest ∧
      limiter.poll scope now recorded = (next, .ok (some (oldest + rate.length - now))) ∧
      Keeps config next history now := by
  obtain ⟨window, present, quota, millis, kept⟩ := keeps.limited scope rate limited
  have held : window.quota ≤ (window.counting now).length := by
    rw [counting_eq millis kept, quota, ← List.countP_eq_length_filter]
    exact full
  obtain ⟨oldest, rest, counting, -, waits⟩ :=
    SlidingWindow.poll_of_full (by rw [quota]; exact positive) held recorded
  obtain ⟨next, polled, replaced⟩ := poll_of_window present waits
  refine ⟨next, oldest, rest, ?_, ?_, ?_⟩
  · rw [← counting_eq millis kept, counting]
  · rw [polled, rate.length_of_millis millis]
  · have kept := keeps.update le_rfl limited kept.purged quota millis replaced
    rwa [Function.update_eq_self] at kept

theorem full_of_not_room {scope : Scope} {stamps : List τ}
    (noRoom : ¬ HasRoom config scope stamps now) :
    ∃ rate, config.rate? scope = some rate ∧
      rate.requests ≤ stamps.countP (fun stamp => decide (now - rate.length < stamp)) := by
  by_contra noneFull
  refine noRoom fun rate limited => ?_
  by_contra full
  exact noneFull ⟨rate, limited, not_lt.mp full⟩

/-- A request is let through, or is to come back later. -/
theorem poll_cases [IsStrictOrderedRing τ] (keeps : Keeps config limiter history now)
    (positive : config.IsPositive) (scope : Scope) :
    ∃ next, limiter.poll scope now now = (next, .ok none) ∨
      ∃ delay, 0 < delay ∧ limiter.poll scope now now = (next, .ok (some delay)) := by
  by_cases room : HasRoom config scope (history scope) now
  · obtain ⟨next, answer, -⟩ := keeps.poll_of_room room le_rfl
    exact ⟨next, Or.inl answer⟩
  · obtain ⟨rate, limited, full⟩ := full_of_not_room room
    obtain ⟨next, oldest, rest, counting, answer, -⟩ :=
      keeps.poll_of_full limited (positive scope rate limited).1 full now
    refine ⟨next, Or.inr ⟨_, ?_, answer⟩⟩
    have counts : oldest ∈ (history scope).filter fun stamp =>
        decide (now - rate.length < stamp) := by
      rw [counting]
      exact List.mem_cons_self
    exact sub_pos.mpr (sub_lt_iff_lt_add.mp (of_decide_eq_true (List.mem_filter.mp counts).2))

variable [IsStrictOrderedRing τ] {scope : Scope} {next : Limiter τ} {recorded : τ}

theorem granted (keeps : Keeps config limiter history now) (positive : config.IsPositive)
    (ordered : now ≤ recorded) (polled : limiter.poll scope now recorded = (next, .ok none)) :
    HasRoom config scope (history scope) now ∧
      Keeps config next (Function.update history scope (history scope ++ [recorded])) recorded := by
  by_cases room : HasRoom config scope (history scope) now
  · obtain ⟨_, answer, kept⟩ := keeps.poll_of_room room ordered
    rw [polled] at answer
    cases answer
    exact ⟨room, kept⟩
  · obtain ⟨rate, limited, full⟩ := full_of_not_room room
    obtain ⟨_, _, _, -, answer, -⟩ :=
      keeps.poll_of_full limited (positive scope rate limited).1 full recorded
    rw [polled] at answer
    cases answer

/-- Whoever is put off found a full scope, and is to come back when its oldest stamp that counts has
stopped counting. No stamp changes. -/
theorem refused (keeps : Keeps config limiter history now) (positive : config.IsPositive)
    (ordered : now ≤ recorded) {delay : τ}
    (polled : limiter.poll scope now recorded = (next, .ok (some delay))) :
    ∃ rate oldest rest, config.rate? scope = some rate ∧
      (history scope).filter (fun stamp => decide (now - rate.length < stamp)) = oldest :: rest ∧
      rate.requests ≤ (oldest :: rest).length ∧ delay = oldest + rate.length - now ∧
      Keeps config next history now := by
  by_cases room : HasRoom config scope (history scope) now
  · obtain ⟨_, answer, -⟩ := keeps.poll_of_room room ordered
    rw [polled] at answer
    cases answer
  · obtain ⟨rate, limited, full⟩ := full_of_not_room room
    obtain ⟨_, oldest, rest, counting, answer, kept⟩ :=
      keeps.poll_of_full limited (positive scope rate limited).1 full recorded
    rw [polled] at answer
    cases answer
    rw [List.countP_eq_length_filter, counting] at full
    exact ⟨rate, oldest, rest, limited, counting, full, rfl, kept⟩

end Keeps

end History

end Limiter

end WebHarvest.RateLimit
