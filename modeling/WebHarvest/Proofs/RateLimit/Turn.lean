import WebHarvest.Proofs.RateLimit.Limiter

/-!
# When a request is let through

A scope lets a request through as soon as the stamp that is a quota from the end of its history no
longer counts. Whoever asks before that is told to come back when the oldest stamp that counts
expires: that is never too late, and it is the time itself when no more stamps count than the quota
allows.
-/

set_option autoImplicit false

namespace WebHarvest.RateLimit

variable {τ : Type} [CommRing τ] [LinearOrder τ]

/-- When a scope lets a request through that comes at a time, given all its stamps so far. -/
def turn (quota : Nat) (length : τ) (stamps : List τ) (now : τ) : τ :=
  match stamps.reverse[quota - 1]? with
  | some stamp => max now (stamp + length)
  | none => now

section Turn

variable {quota : Nat} {length : τ} {stamps : List τ} {now later : τ}

theorem turn_of_few (few : stamps.length < quota) : turn quota length stamps now = now := by
  have missing : stamps.reverse[quota - 1]? = none := by
    rw [List.getElem?_eq_none_iff, List.length_reverse]
    omega
  rw [turn, missing]

theorem turn_of_many (many : quota ≤ stamps.length)
    (inside : stamps.length - quota < stamps.length) :
    turn quota length stamps now = max now (stamps[stamps.length - quota] + length) := by
  have held : stamps.reverse[quota - 1]? = some stamps[stamps.length - quota] := by
    rw [List.getElem?_reverse (by omega), List.getElem?_eq_getElem (by omega)]
    have place : stamps.length - 1 - (quota - 1) = stamps.length - quota := by omega
    simp only [place]
  rw [turn, held]

theorem le_turn (quota : Nat) (length : τ) (stamps : List τ) (now : τ) :
    now ≤ turn quota length stamps now := by
  unfold turn
  split
  · exact le_max_left _ _
  · exact le_refl now

theorem turn_max (quota : Nat) (length : τ) (stamps : List τ) (now later : τ) :
    turn quota length stamps (max later now) = max later (turn quota length stamps now) := by
  unfold turn
  split
  · exact max_assoc _ _ _
  · rfl

/-- Whoever comes later, but not too late, is let through at the same time. -/
theorem turn_of_between (after : now ≤ later) (before : later ≤ turn quota length stamps now) :
    turn quota length stamps later = turn quota length stamps now := by
  rw [← max_eq_left after, turn_max, max_eq_right before]

variable [IsStrictOrderedRing τ]

/-- One more stamp makes nobody's turn come earlier. -/
theorem turn_le_turn_append (positive : 0 < quota) {time : τ}
    (sorted : (stamps ++ [time]).Pairwise (· ≤ ·)) (now : τ) :
    turn quota length stamps now ≤ turn quota length (stamps ++ [time]) now := by
  rcases Nat.lt_or_ge stamps.length quota with few | many
  · rw [turn_of_few few]
    exact le_turn _ _ _ _
  · have longer : (stamps ++ [time]).length = stamps.length + 1 := List.length_append
    have ordered : (stamps ++ [time])[stamps.length - quota] ≤
        (stamps ++ [time])[(stamps ++ [time]).length - quota] :=
      List.pairwise_iff_getElem.mp sorted _ _ (by omega) (by omega) (by omega)
    rw [List.getElem_append_left (by omega)] at ordered
    rw [turn_of_many many (by omega), turn_of_many (longer ▸ many.step) (by omega)]
    exact max_le_max le_rfl (add_le_add_left ordered length)

end Turn

section Recent

variable {stamps : List τ}

omit [CommRing τ] in
/-- Of a sorted history the stamps that count are the last ones. -/
theorem recent_eq_drop (sorted : stamps.Pairwise (· ≤ ·)) (bound : τ) :
    (stamps.filter fun stamp => decide (bound < stamp)) =
      stamps.drop (stamps.length - stamps.countP fun stamp => decide (bound < stamp)) := by
  have suffix : (stamps.filter fun stamp => decide (bound < stamp)) <:+ stamps := by
    rw [← dropWhile_eq_filter sorted]
    exact List.dropWhile_suffix _
  rw [List.countP_eq_length_filter]
  exact List.suffix_iff_eq_drop.mp suffix

omit [CommRing τ] in
theorem recent_iff (sorted : stamps.Pairwise (· ≤ ·)) (bound : τ) {place : Nat}
    (inside : place < stamps.length) :
    bound < stamps[place] ↔
      stamps.length - stamps.countP (fun stamp => decide (bound < stamp)) ≤ place := by
  have counts : stamps.countP (fun stamp => decide (bound < stamp)) ≤ stamps.length :=
    List.countP_le_length
  constructor
  · intro recent
    by_contra early
    -- Everything from this place on counts, which is more than there is to count.
    have rest : (stamps.drop place).countP (fun stamp => decide (bound < stamp)) =
        (stamps.drop place).length := by
      rw [List.countP_eq_length]
      intro stamp member
      obtain ⟨offset, within, rfl⟩ := List.mem_iff_getElem.mp member
      rw [List.length_drop] at within
      rw [List.getElem_drop]
      rcases Nat.eq_zero_or_pos offset with rfl | further
      · exact decide_eq_true recent
      · exact decide_eq_true (recent.trans_le
          (List.pairwise_iff_getElem.mp sorted _ _ inside (by omega) (by omega)))
    have all := List.Sublist.countP_le (p := fun stamp => decide (bound < stamp))
      (List.drop_sublist place stamps)
    rw [rest, List.length_drop] at all
    omega
  · intro late
    have member : stamps[place] ∈ stamps.filter fun stamp => decide (bound < stamp) := by
      rw [recent_eq_drop sorted, List.mem_drop_iff_getElem]
      exact ⟨place - (stamps.length - stamps.countP fun stamp => decide (bound < stamp)), by omega,
        by simp only [Nat.add_sub_cancel' late]⟩
    exact of_decide_eq_true (List.mem_filter.mp member).2

variable [IsStrictOrderedRing τ] {quota : Nat} {length now : τ}

/-- There is room from a request's turn on. -/
theorem room_iff (sorted : stamps.Pairwise (· ≤ ·)) (positive : 0 < quota) :
    stamps.countP (fun stamp => decide (now - length < stamp)) < quota ↔
      turn quota length stamps now ≤ now := by
  have counts : stamps.countP (fun stamp => decide (now - length < stamp)) ≤ stamps.length :=
    List.countP_le_length
  rcases Nat.lt_or_ge stamps.length quota with few | many
  · rw [turn_of_few few]
    exact ⟨fun _ => le_rfl, fun _ => by omega⟩
  · have recent := recent_iff sorted (now - length)
      (show stamps.length - quota < stamps.length by omega)
    rw [sub_lt_iff_lt_add] at recent
    rw [turn_of_many many (by omega), max_le_iff]
    constructor
    · intro room
      exact ⟨le_rfl, not_lt.mp fun counted => absurd (recent.mp counted) (by omega)⟩
    · rintro ⟨-, old⟩
      have gone := mt recent.mpr (not_lt.mpr old)
      omega

end Recent

/-- When the oldest stamp that counts stops counting. -/
def nextExpiry (length : τ) (stamps : List τ) (now : τ) : τ :=
  match stamps.find? fun stamp => decide (now - length < stamp) with
  | some oldest => oldest + length
  | none => now

section Expiry

variable {quota : Nat} {length now : τ} {stamps : List τ}

/-- The oldest stamp that counts stands as far from the end as there are stamps that count. -/
theorem nextExpiry_eq (sorted : stamps.Pairwise (· ≤ ·))
    (some : 0 < stamps.countP fun stamp => decide (now - length < stamp)) :
    ∃ inside : stamps.length - stamps.countP (fun stamp => decide (now - length < stamp)) <
        stamps.length,
      nextExpiry length stamps now =
        stamps[stamps.length - stamps.countP fun stamp => decide (now - length < stamp)] +
          length := by
  have counts : stamps.countP (fun stamp => decide (now - length < stamp)) ≤ stamps.length :=
    List.countP_le_length
  have inside : stamps.length - stamps.countP (fun stamp => decide (now - length < stamp)) <
      stamps.length := by omega
  refine ⟨inside, ?_⟩
  rw [nextExpiry, ← List.head?_filter, recent_eq_drop sorted, List.head?_drop,
    List.getElem?_eq_getElem inside]

/-- When a stamp has expired, fewer stamps count. -/
theorem countP_nextExpiry_lt (sorted : stamps.Pairwise (· ≤ ·))
    (some : 0 < stamps.countP fun stamp => decide (now - length < stamp)) :
    stamps.countP (fun stamp => decide (nextExpiry length stamps now - length < stamp)) <
      stamps.countP fun stamp => decide (now - length < stamp) := by
  obtain ⟨inside, expiry⟩ := nextExpiry_eq sorted some
  have gone := mt (recent_iff sorted (nextExpiry length stamps now - length) inside).mpr
    (by rw [expiry, add_sub_cancel_right]; exact lt_irrefl _)
  omega

theorem turn_of_early (positive : 0 < quota) (early : now < turn quota length stamps now) :
    ∃ inside : stamps.length - quota < stamps.length,
      turn quota length stamps now = stamps[stamps.length - quota] + length := by
  have many : quota ≤ stamps.length := by
    by_contra few
    rw [turn_of_few (not_le.mp few)] at early
    exact lt_irrefl now early
  have inside : stamps.length - quota < stamps.length := by omega
  refine ⟨inside, ?_⟩
  rw [turn_of_many many (by omega)] at early ⊢
  exact max_eq_right ((lt_max_iff.mp early).resolve_left (lt_irrefl now)).le

variable [IsStrictOrderedRing τ]

/-- Whoever asks before its turn finds as many stamps that count as the quota allows. -/
theorem full_of_early (sorted : stamps.Pairwise (· ≤ ·)) (positive : 0 < quota)
    (early : now < turn quota length stamps now) :
    quota ≤ stamps.countP fun stamp => decide (now - length < stamp) :=
  not_lt.mp fun room => not_le.mpr early ((room_iff sorted positive).mp room)

theorem lt_nextExpiry (sorted : stamps.Pairwise (· ≤ ·)) (positive : 0 < quota)
    (early : now < turn quota length stamps now) : now < nextExpiry length stamps now := by
  have full := full_of_early sorted positive early
  obtain ⟨inside, expiry⟩ := nextExpiry_eq sorted (Nat.lt_of_lt_of_le positive full)
  rw [expiry]
  exact sub_lt_iff_lt_add.mp ((recent_iff sorted _ inside).mpr le_rfl)

/-- A stamp never expires later than it has to for the next request to be let through. -/
theorem nextExpiry_le_turn (sorted : stamps.Pairwise (· ≤ ·)) (positive : 0 < quota)
    (early : now < turn quota length stamps now) :
    nextExpiry length stamps now ≤ turn quota length stamps now := by
  have full := full_of_early sorted positive early
  obtain ⟨inside, expiry⟩ := nextExpiry_eq sorted (Nat.lt_of_lt_of_le positive full)
  obtain ⟨insideToo, far⟩ := turn_of_early positive early
  rw [expiry, far]
  refine add_le_add_left ?_ length
  rcases Nat.lt_or_eq_of_le full with more | exactly
  · have counts : stamps.countP (fun stamp => decide (now - length < stamp)) ≤ stamps.length :=
      List.countP_le_length
    exact List.pairwise_iff_getElem.mp sorted _ _ inside insideToo (by omega)
  · simp only [← exactly, le_refl]

theorem nextExpiry_eq_turn (sorted : stamps.Pairwise (· ≤ ·)) (positive : 0 < quota)
    (early : now < turn quota length stamps now)
    (within : stamps.countP (fun stamp => decide (now - length < stamp)) ≤ quota) :
    nextExpiry length stamps now = turn quota length stamps now := by
  have exactly := le_antisymm within (full_of_early sorted positive early)
  obtain ⟨inside, expiry⟩ := nextExpiry_eq sorted (by rw [exactly]; exact positive)
  obtain ⟨insideToo, far⟩ := turn_of_early positive early
  rw [expiry, far]
  simp only [exactly]

end Expiry

section Asking

variable [ExactScale τ]

/-- No span is too long for an exact time scale, so a window always answers. -/
theorem SlidingWindow.exists_poll (window : SlidingWindow τ) (checked recorded : τ) :
    ∃ answer, window.poll checked recorded = .ok answer := by
  obtain ⟨⟨asked, delay⟩, waits⟩ : ∃ answer, window.wait checked = .ok answer := by
    rw [wait, purge_eq]
    simp only [ExactScale.span_eq, bind, Except.bind, pure, Except.pure]
    split
    · split
      · exact ⟨_, rfl⟩
      · exact ⟨_, rfl⟩
    · exact ⟨_, rfl⟩
  rw [poll, waits]
  simp only [bind, Except.bind, pure, Except.pure]
  split
  · exact ⟨_, rfl⟩
  · exact ⟨_, rfl⟩

/-- How a scope stands after it was asked at a time, and how long the request has to wait. -/
def ask : Option (SlidingWindow τ) → τ → Option (SlidingWindow τ) × Option τ
  | none, _ => (none, none)
  | some window, now =>
      match window.poll now now with
      | .ok (next, delay) => (some next, delay)
      | .error _ => (some window, none)

theorem ask_of_poll {window next : SlidingWindow τ} {now : τ} {delay : Option τ}
    (polled : window.poll now now = .ok (next, delay)) :
    ask (some window) now = (some next, delay) := by
  rw [ask, polled]

/-- A request that is let through leaves its time as the last stamp. -/
theorem SlidingWindow.getLast?_of_poll {window next : SlidingWindow τ} {checked recorded : τ}
    (granted : window.poll checked recorded = .ok (next, none)) :
    next.stamps.getLast? = some recorded := by
  cases waits : window.wait checked with
  | error failure =>
      rw [poll, waits] at granted
      cases granted
  | ok answer =>
      rw [poll, waits] at granted
      simp only [bind, Except.bind, pure, Except.pure] at granted
      split at granted
      · cases granted
        exact List.getLast?_concat
      · cases granted

theorem getLast?_of_ask {window? : Option (SlidingWindow τ)} {now : τ} {next : SlidingWindow τ}
    (granted : ask window? now = (some next, none)) : next.stamps.getLast? = some now := by
  cases window? with
  | none => cases granted
  | some window =>
      obtain ⟨⟨asked, delay⟩, polled⟩ := window.exists_poll now now
      rw [ask_of_poll polled] at granted
      cases granted
      exact window.getLast?_of_poll polled

/-- To ask a scope of a limiter is to ask its window. -/
theorem Limiter.poll_ask (limiter : Limiter τ) (scope : Scope) (now : τ) :
    ∃ next, limiter.poll scope now now = (next, .ok (ask (limiter.windowOf scope) now).2) ∧
      next.windowOf = Function.update limiter.windowOf scope
        (ask (limiter.windowOf scope) now).1 := by
  cases limited : limiter.windowOf scope with
  | none =>
      refine ⟨limiter.ensure scope, poll_of_unlimited limited now now, ?_⟩
      rw [ensure_windowOf, ask, ← limited, Function.update_eq_self]
  | some window =>
      obtain ⟨⟨asked, delay⟩, polled⟩ := window.exists_poll now now
      obtain ⟨next, answer, replaced⟩ := poll_of_window limited polled
      rw [ask_of_poll polled]
      exact ⟨next, answer, replaced⟩

end Asking

namespace SlidingWindow.Remembers

variable [ExactScale τ] {window : SlidingWindow τ} {history : List τ} {now : τ}

theorem length_counting (remembers : window.Remembers history now) :
    (window.counting now).length =
      history.countP fun stamp => decide (now - window.length < stamp) := by
  rw [remembers.counting_eq_filter, List.countP_eq_length_filter]

variable [IsStrictOrderedRing τ]

theorem poll_of_turn (remembers : window.Remembers history now) (positive : 0 < window.quota)
    (due : turn window.quota window.length history now ≤ now) (recorded : τ) :
    window.poll now recorded =
      .ok ({ window with stamps := window.counting now ++ [recorded] }, none) := by
  refine poll_of_room ?_ recorded
  rw [remembers.length_counting]
  exact (room_iff remembers.sorted positive).mpr due

/-- Before its turn a request is told to come back when the oldest stamp that counts no longer
does. -/
theorem poll_before_turn (remembers : window.Remembers history now) (positive : 0 < window.quota)
    (early : now < turn window.quota window.length history now) (recorded : τ) :
    window.poll now recorded =
      .ok ({ window with stamps := window.counting now },
        some (nextExpiry window.length history now - now)) := by
  have full := full_of_early remembers.sorted positive early
  rw [← remembers.length_counting] at full
  obtain ⟨oldest, rest, counting, -, answer⟩ := poll_of_full positive full recorded
  have first : history.find? (fun stamp => decide (now - window.length < stamp)) =
      some oldest := by
    rw [← List.head?_filter, ← remembers.counting_eq_filter, counting, List.head?_cons]
  rw [answer, nextExpiry, first]

end SlidingWindow.Remembers

end WebHarvest.RateLimit
