import WebHarvest.Proofs.RateLimit.Limiter

/-!
# When a limiter has to give way

A scope that lets some request through at all does so again once its stamps have all stopped
counting. Asking in vain moves that time no further away.
-/

set_option autoImplicit false

namespace WebHarvest.RateLimit

namespace SlidingWindow

/-- A window is never in the way of a request once none of its stamps counts any more. -/
def FreeBy (window : SlidingWindow Int) (time : Int) : Prop :=
  ∀ stamp ∈ window.stamps, stamp + window.length ≤ time

theorem exists_freeBy (window : SlidingWindow Int) : ∃ time, window.FreeBy time := by
  obtain ⟨quota, windowMs, stamps⟩ := window
  induction stamps with
  | nil => exact ⟨0, fun _ member => by cases member⟩
  | cons stamp rest ih =>
      obtain ⟨time, free⟩ := ih
      refine ⟨max time (stamp + (⟨quota, windowMs, []⟩ : SlidingWindow Int).length), ?_⟩
      intro other member
      rcases List.mem_cons.mp member with rfl | member
      · exact le_max_right _ _
      · exact (free other member).trans (le_max_left _ _)

theorem FreeBy.later {window : SlidingWindow Int} {time later : Int} (free : window.FreeBy time)
    (ordered : time ≤ later) : window.FreeBy later :=
  fun stamp member => (free stamp member).trans ordered

/-- Whoever is let through leaves a stamp; whoever is not finds the window busy. -/
theorem poll_cases {window : SlidingWindow Int} (opened : 0 < window.quota) (now : Int) :
    ∃ next : SlidingWindow Int, next.quota = window.quota ∧
      (window.poll now now = .ok (next, none) ∨
        ∃ delay, 0 < delay ∧ window.poll now now = .ok (next, some delay) ∧
          ∀ time, window.FreeBy time → next.FreeBy time ∧ now < time) := by
  rcases Nat.lt_or_ge (window.counting now).length window.quota with room | full
  · exact ⟨{ window with stamps := window.counting now ++ [now] }, rfl,
      Or.inl (poll_of_room room now)⟩
  · obtain ⟨oldest, rest, counting, counts, waits⟩ := poll_of_full opened full now
    refine ⟨{ window with stamps := window.counting now }, rfl,
      Or.inr ⟨_, sub_pos.mpr counts, waits, fun time free => ⟨?_, ?_⟩⟩⟩
    · intro stamp member
      exact free stamp ((List.dropWhile_sublist _).mem member)
    · have held : oldest ∈ window.counting now := by
        rw [counting]
        exact List.mem_cons_self
      exact counts.trans_le (free oldest ((List.dropWhile_sublist _).mem held))

end SlidingWindow

namespace Limiter

/-- Every scope lets some request through. -/
def IsOpen (limiter : Limiter Int) : Prop :=
  ∀ scope window, limiter.windowOf scope = some window → 0 < window.quota

def FreeBy (limiter : Limiter Int) (time : Int) : Prop :=
  ∀ scope window, limiter.windowOf scope = some window → window.FreeBy time

/-- The windows of a limiter that hold stamps are finitely many. -/
theorem exists_freeBy (limiter : Limiter Int) : ∃ time, limiter.FreeBy time := by
  have domains : ∃ time, ∀ entry ∈ limiter.domains, entry.2.FreeBy time := by
    induction limiter.domains with
    | nil => exact ⟨0, fun _ member => by cases member⟩
    | cons entry rest ih =>
        obtain ⟨time, free⟩ := ih
        obtain ⟨own, ownFree⟩ := entry.2.exists_freeBy
        refine ⟨max time own, List.forall_mem_cons.mpr ⟨ownFree.later (le_max_right _ _), ?_⟩⟩
        exact fun other member => (free other member).later (le_max_left _ _)
  have global : ∃ time, ∀ window, limiter.global = some window → window.FreeBy time := by
    cases limiter.global with
    | none => exact ⟨0, fun _ held => by cases held⟩
    | some window =>
        obtain ⟨time, free⟩ := window.exists_freeBy
        exact ⟨time, fun _ held => by cases held; exact free⟩
  obtain ⟨late, domainsFree⟩ := domains
  obtain ⟨soon, globalFree⟩ := global
  refine ⟨max late soon, fun scope window held => ?_⟩
  cases scope with
  | global => exact (globalFree window held).later (le_max_right _ _)
  | domain name =>
      rcases Option.or_eq_some_iff.mp held with known | ⟨-, fresh⟩
      · obtain ⟨entry, found, rfl⟩ := Option.map_eq_some_iff.mp known
        exact (domainsFree entry (List.mem_of_find?_eq_some found)).later (le_max_left _ _)
      · obtain ⟨rate, -, rfl⟩ := Option.map_eq_some_iff.mp fresh
        intro stamp member
        cases member

theorem forall_windowOf {limiter next : Limiter Int} {scope : Scope} {asked : SlidingWindow Int}
    (replaced : next.windowOf = Function.update limiter.windowOf scope (some asked))
    {property : SlidingWindow Int → Prop} (holds : property asked)
    (others : ∀ other window, limiter.windowOf other = some window → property window) :
    ∀ other window, next.windowOf other = some window → property window := by
  intro other window present
  rw [replaced] at present
  by_cases same : other = scope
  · subst same
    rw [Function.update_self] at present
    cases present
    exact holds
  · rw [Function.update_of_ne same] at present
    exact others other window present

/-- A request is let through, or is to come back later; in the end it is let through. -/
theorem poll_progress {limiter : Limiter Int} (opened : limiter.IsOpen) (scope : Scope)
    (now : Int) :
    ∃ next : Limiter Int, next.IsOpen ∧
      (limiter.poll scope now now = (next, .ok none) ∨
        ∃ delay, 0 < delay ∧ limiter.poll scope now now = (next, .ok (some delay)) ∧
          ∀ time, limiter.FreeBy time → next.FreeBy time ∧ now < time) := by
  cases held : limiter.windowOf scope with
  | none =>
      refine ⟨limiter.ensure scope, ?_, Or.inl (poll_of_unlimited held now now)⟩
      intro other window found
      rw [ensure_windowOf] at found
      exact opened other window found
  | some window =>
      obtain ⟨asked, quota, polled⟩ := SlidingWindow.poll_cases (opened scope window held) now
      have stays : 0 < asked.quota := by
        rw [quota]
        exact opened scope window held
      rcases polled with granted | ⟨delay, late, refused, busy⟩
      · obtain ⟨next, answer, replaced⟩ := poll_of_window held granted
        exact ⟨next, forall_windowOf replaced stays opened, Or.inl answer⟩
      · obtain ⟨next, answer, replaced⟩ := poll_of_window held refused
        refine ⟨next, forall_windowOf replaced stays opened, Or.inr ⟨delay, late, answer, ?_⟩⟩
        intro time free
        obtain ⟨askedFree, before⟩ := busy time (free scope window held)
        exact ⟨forall_windowOf replaced askedFree free, before⟩

end Limiter

end WebHarvest.RateLimit
