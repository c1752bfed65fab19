import Mathlib.Order.Bounds.Defs
import WebHarvest.Proofs.RateLimit.Window

/-!
# Windows as they are used

Whoever uses a sliding window records a request only when a wait has come to nothing and nothing
was recorded since. However often the window is purged and asked in between, it then holds exactly
those of all the stamps it was ever given that still count, and a wait is as long as it has to be
and no longer.
-/

set_option autoImplicit false

namespace WebHarvest.RateLimit.SlidingWindow

variable {τ : Type} [CommRing τ] [LinearOrder τ] [ExactScale τ]

/-- The stamps of a history that still count at a time. -/
def recent (windowMs : Int) (history : List τ) (now : τ) : List τ :=
  history.filter fun stamp => decide (now - windowMs * ExactScale.unit < stamp)

theorem recent_later [IsStrictOrderedRing τ] {now later : τ} (ordered : now ≤ later)
    (windowMs : Int) (history : List τ) :
    recent windowMs history later = recent windowMs (recent windowMs history now) later := by
  simp only [recent, List.filter_filter]
  refine List.filter_congr fun stamp _ => ?_
  have still (counts : later - windowMs * ExactScale.unit < stamp) :
      now - windowMs * ExactScale.unit < stamp :=
    lt_of_le_of_lt (sub_le_sub_right ordered _) counts
  simpa using still

/-- A window that was made for a quota, then purged, asked and recorded in at times in order: what
was recorded in all, the time of the last call, and whether a request may be recorded, that is, a
wait has come to nothing and nothing was recorded since. -/
inductive Used (quota windowMs : Int) : SlidingWindow τ → List τ → τ → Bool → Prop where
  | new {window} (made : ofQuota quota windowMs = .ok window) (now : τ) :
      Used quota windowMs window [] now false
  | purge {window after history before now vacant} :
      Used quota windowMs window history before vacant → before ≤ now →
      window.purge now = .ok after →
      Used quota windowMs after history now vacant
  | wait {window after history before now vacant delay} :
      Used quota windowMs window history before vacant → before ≤ now →
      window.wait now = .ok (after, delay) →
      Used quota windowMs after history now (vacant || decide (delay = 0))
  | record {window history before now} :
      Used quota windowMs window history before true → before ≤ now →
      Used quota windowMs (window.record now) (history ++ [now]) now false

/-- A window that keeps its history, with room whenever a request may be recorded. -/
structure Prepared (quota windowMs : Int) (window : SlidingWindow τ) (history : List τ) (now : τ)
    (vacant : Bool) : Prop where
  quota_eq : window.quota = quota.toNat
  windowMs_eq : window.windowMs = windowMs
  positive : 0 < quota
  keeps : Keeps window history now
  room : vacant = true → window.stamps.length < window.quota

namespace Prepared

variable {quota windowMs : Int} {window after : SlidingWindow τ} {history : List τ}
  {before now delay : τ} {vacant : Bool}

theorem new (made : ofQuota quota windowMs = .ok window) (now : τ) :
    Prepared quota windowMs window [] now false := by
  rw [ofQuota] at made
  split at made
  · cases made
  · next sound =>
      cases made
      exact ⟨rfl, rfl, by grind, Keeps.new _ _ now, nofun⟩

theorem counting_eq (prepared : Prepared quota windowMs window history now vacant) :
    window.counting now = recent windowMs history now := by
  rw [prepared.keeps.counting_eq_filter, recent, length, prepared.windowMs_eq]

theorem purge_eq (prepared : Prepared quota windowMs window history now vacant) :
    window.purge now = .ok ⟨quota.toNat, windowMs, recent windowMs history now⟩ := by
  rw [SlidingWindow.purge_eq, prepared.counting_eq, prepared.quota_eq, prepared.windowMs_eq]

theorem purged (prepared : Prepared quota windowMs window history now vacant) :
    Prepared quota windowMs ⟨quota.toNat, windowMs, recent windowMs history now⟩ history now
      vacant := by
  have shrinks : (window.counting now).length ≤ window.stamps.length :=
    (List.dropWhile_sublist _).length_le
  rw [← prepared.counting_eq, ← prepared.quota_eq, ← prepared.windowMs_eq]
  exact ⟨prepared.quota_eq, rfl, prepared.positive, prepared.keeps.purged,
    fun isVacant => lt_of_le_of_lt shrinks (prepared.room isVacant)⟩

theorem recent_le (prepared : Prepared quota windowMs window history now vacant) :
    (recent windowMs history now).length ≤ quota := by
  have within : (recent windowMs history now).length ≤ quota.toNat := prepared.purged.keeps.within
  have positive := prepared.positive
  omega

/-- A window with room asks nobody to wait. -/
theorem wait_of_few (prepared : Prepared quota windowMs window history now vacant)
    (few : (recent windowMs history now).length < quota) :
    window.wait now = .ok (⟨quota.toNat, windowMs, recent windowMs history now⟩, 0) := by
  have room : (window.counting now).length < window.quota := by
    rw [prepared.counting_eq, prepared.quota_eq]
    omega
  rw [wait_of_room room, prepared.counting_eq, prepared.quota_eq, prepared.windowMs_eq]

variable [IsStrictOrderedRing τ]

theorem later (prepared : Prepared quota windowMs window history before vacant)
    (ordered : before ≤ now) : Prepared quota windowMs window history now vacant :=
  { prepared with keeps := prepared.keeps.later ordered }

theorem record (prepared : Prepared quota windowMs window history before true)
    (ordered : before ≤ now) :
    Prepared quota windowMs (window.record now) (history ++ [now]) now false where
  quota_eq := prepared.quota_eq
  windowMs_eq := prepared.windowMs_eq
  positive := prepared.positive
  keeps := prepared.keeps.record (prepared.room rfl) ordered
  room isVacant := nomatch isVacant

/-- A full window asks to wait until the oldest of its stamps stops counting. -/
theorem wait_of_many (prepared : Prepared quota windowMs window history now vacant)
    (many : quota ≤ (recent windowMs history now).length) :
    ∃ oldest rest, recent windowMs history now = oldest :: rest ∧
      now < oldest + windowMs * ExactScale.unit ∧
      window.wait now = .ok (⟨quota.toNat, windowMs, recent windowMs history now⟩,
        oldest + windowMs * ExactScale.unit - now) := by
  have positive := prepared.positive
  have full : window.quota ≤ (window.counting now).length := by
    rw [prepared.counting_eq, prepared.quota_eq]
    omega
  obtain ⟨oldest, rest, held, counts, waits⟩ :=
    wait_of_full (by rw [prepared.quota_eq]; omega) full
  rw [prepared.counting_eq] at held waits
  rw [length, prepared.windowMs_eq] at counts waits
  rw [prepared.quota_eq] at waits
  exact ⟨oldest, rest, held, counts, waits⟩

/-- A window answers, and what it asks for is nothing exactly when fewer stamps count than its
quota allows: a delay that was cut off at nothing never hides a full window. -/
theorem wait_eq (prepared : Prepared quota windowMs window history now vacant) :
    ∃ delay, window.wait now =
        .ok (⟨quota.toNat, windowMs, recent windowMs history now⟩, delay) ∧
      (delay = 0 ↔ (recent windowMs history now).length < quota) := by
  by_cases few : (recent windowMs history now).length < quota
  · exact ⟨0, prepared.wait_of_few few, by simpa using few⟩
  · obtain ⟨oldest, rest, -, counts, waits⟩ := prepared.wait_of_many (not_lt.mp few)
    have late : oldest + windowMs * ExactScale.unit - now ≠ 0 := ne_of_gt (sub_pos.mpr counts)
    exact ⟨_, waits, by simpa [few] using late⟩

/-- While the oldest of the stamps of a window counts, all of them do. -/
theorem recent_before (prepared : Prepared quota windowMs window history now vacant)
    {oldest later : τ} {rest : List τ} (held : recent windowMs history now = oldest :: rest)
    (ordered : now ≤ later) (early : later < oldest + windowMs * ExactScale.unit) :
    recent windowMs history later = oldest :: rest := by
  rw [recent_later ordered, held, recent, List.filter_eq_self]
  intro stamp member
  have sorted : (oldest :: rest).Pairwise (· ≤ ·) := by
    rw [← held]
    exact prepared.keeps.sorted.filter _
  have least : oldest ≤ stamp := by
    cases member with
    | head => exact le_rfl
    | tail _ inRest => exact List.rel_of_pairwise_cons sorted inRest
  exact decide_eq_true (lt_of_lt_of_le (sub_lt_iff_lt_add.mpr early) least)

/-- Once the oldest of its stamps has stopped counting, there is room in a window. -/
theorem recent_after (prepared : Prepared quota windowMs window history now vacant)
    {oldest : τ} {rest : List τ} (held : recent windowMs history now = oldest :: rest)
    (ordered : now ≤ oldest + windowMs * ExactScale.unit) :
    (recent windowMs history (oldest + windowMs * ExactScale.unit)).length < quota := by
  have within := prepared.recent_le
  have left : (recent windowMs rest (oldest + windowMs * ExactScale.unit)).length ≤ rest.length :=
    List.length_filter_le _ _
  have gone : recent windowMs (oldest :: rest) (oldest + windowMs * ExactScale.unit) =
      recent windowMs rest (oldest + windowMs * ExactScale.unit) :=
    List.filter_cons_of_neg (by simp)
  rw [recent_later ordered, held, gone]
  rw [held, List.length_cons] at within
  omega

/-- What a wait leaves behind is asked again: the delay that was told is the shortest one after
which nobody is asked to wait. -/
theorem wait_isLeast (prepared : Prepared quota windowMs window history now vacant)
    (waited : window.wait now = .ok (after, delay)) :
    IsLeast {pause | 0 ≤ pause ∧ ∃ final, after.wait (now + pause) = .ok (final, 0)} delay := by
  have left := prepared.purged
  by_cases few : (recent windowMs history now).length < quota
  · cases waited.symm.trans (prepared.wait_of_few few)
    have still : ∃ final, SlidingWindow.wait ⟨quota.toNat, windowMs, recent windowMs history now⟩
        (now + 0) = .ok (final, 0) := by
      rw [add_zero]
      exact ⟨_, left.wait_of_few few⟩
    exact ⟨⟨le_rfl, still⟩, fun pause waits => waits.1⟩
  · obtain ⟨oldest, rest, held, counts, waits⟩ := prepared.wait_of_many (not_lt.mp few)
    cases waited.symm.trans waits
    constructor
    · have free := (left.later (le_of_lt counts)).wait_of_few
        (left.recent_after held (le_of_lt counts))
      rw [← add_sub_cancel now (oldest + windowMs * ExactScale.unit)] at free
      exact ⟨le_of_lt (sub_pos.mpr counts), _, free⟩
    · rintro pause ⟨forward, final, free⟩
      by_contra! short
      have ordered : now ≤ now + pause := le_add_of_nonneg_right forward
      have early : now + pause < oldest + windowMs * ExactScale.unit := lt_sub_iff_add_lt'.mp short
      have full : quota ≤ (recent windowMs history (now + pause)).length := by
        rw [left.recent_before held ordered early, ← held]
        exact not_lt.mp few
      obtain ⟨_, _, -, stillCounts, stillWaits⟩ := (left.later ordered).wait_of_many full
      have none := congrArg Prod.snd (Except.ok.inj (free.symm.trans stillWaits))
      exact absurd none.symm (ne_of_gt (sub_pos.mpr stillCounts))

end Prepared

namespace Used

variable [IsStrictOrderedRing τ] {quota windowMs : Int} {window : SlidingWindow τ}
  {history : List τ} {before now : τ} {vacant : Bool}

/-- Every call on a window leaves it prepared for the next. -/
theorem prepared (used : Used quota windowMs window history now vacant) :
    Prepared quota windowMs window history now vacant := by
  induction used with
  | new made now => exact Prepared.new made now
  | purge _ ordered purged ih =>
      have prepared := ih.later ordered
      cases purged.symm.trans prepared.purge_eq
      exact prepared.purged
  | @wait _ _ history _ now vacant delay _ ordered waited ih =>
      have prepared := ih.later ordered
      obtain ⟨delay, waits, free⟩ := prepared.wait_eq
      cases waited.symm.trans waits
      refine { prepared.purged with room := fun isVacant => ?_ }
      cases (Bool.or_eq_true _ _).mp isVacant with
      | inl before => exact prepared.purged.room before
      | inr nothing =>
          have few : (recent windowMs history now).length < quota :=
            free.mp (of_decide_eq_true nothing)
          change (recent windowMs history now).length < quota.toNat
          omega
  | record _ ordered ih => exact ih.record ordered

/-- Polling is such a use: a request is recorded when a wait has come to nothing just before. -/
theorem poll {after : SlidingWindow τ} {checked recorded : τ} {told : Option τ}
    (used : Used quota windowMs window history before vacant) (ordered : before ≤ checked)
    (forward : checked ≤ recorded) (polled : window.poll checked recorded = .ok (after, told)) :
    match told with
    | none => Used quota windowMs after (history ++ [recorded]) recorded false
    | some _ => Used quota windowMs after history checked vacant := by
  have prepared := used.prepared.later ordered
  obtain ⟨delay, waits, -⟩ := prepared.wait_eq
  have notBelow : 0 ≤ delay := (prepared.wait_isLeast waits).1.1
  have waited := Used.wait used ordered waits
  rw [SlidingWindow.poll, waits] at polled
  simp only [bind, Except.bind, ExactScale.atMost_eq, ExactScale.zero_eq] at polled
  by_cases free : delay ≤ 0
  · cases le_antisymm free notBelow
    simp only [le_refl, decide_true, if_true] at polled
    cases polled
    rw [decide_eq_true rfl, Bool.or_true] at waited
    exact waited.record forward
  · simp only [free, decide_false, Bool.false_eq_true, if_false] at polled
    cases polled
    have some : delay ≠ 0 := fun none => free (le_of_eq none)
    rw [decide_eq_false some, Bool.or_false] at waited
    exact waited

/-- At whatever time it is asked, a window that is used so holds exactly the stamps of its history
that still count, in order. A wait comes to nothing exactly when these are fewer than the quota; in
any case it is the least delay after which, with nothing recorded, a wait comes to nothing. -/
theorem window_counts (used : Used quota windowMs window history before vacant)
    (ordered : before ≤ now) :
    ∃ after delay, after = ⟨quota.toNat, windowMs, recent windowMs history now⟩ ∧
      window.purge now = .ok after ∧ window.wait now = .ok (after, delay) ∧
      (delay = 0 ↔ (recent windowMs history now).length < quota) ∧
      IsLeast {pause | 0 ≤ pause ∧ ∃ final, after.wait (now + pause) = .ok (final, 0)} delay := by
  have prepared := used.prepared.later ordered
  obtain ⟨delay, waits, free⟩ := prepared.wait_eq
  exact ⟨_, delay, rfl, prepared.purge_eq, waits, free, prepared.wait_isLeast waits⟩

/-- A window for one request in a millisecond, asked at once, recorded in a microsecond later, and
asked again half a millisecond after that. -/
theorem window_counts_once :
    let window : SlidingWindow Int := ⟨1, 1, [1]⟩
    Used 1 1 window [1] 1 false ∧ (1 : Int) ≤ 501 ∧ recent 1 [(1 : Int)] 501 = [1] ∧
      ∃ after delay, after = ⟨1, 1, recent 1 [1] 501⟩ ∧
        window.purge 501 = .ok after ∧ window.wait 501 = .ok (after, delay) ∧
        (delay = 0 ↔ (recent 1 [(1 : Int)] 501).length < (1 : Int)) ∧
        IsLeast {pause | 0 ≤ pause ∧ ∃ final, after.wait (501 + pause) = .ok (final, 0)} delay := by
  have made : Used 1 1 (⟨1, 1, []⟩ : SlidingWindow Int) [] 0 false := .new rfl 0
  have asked : Used 1 1 (⟨1, 1, []⟩ : SlidingWindow Int) [] 0 true :=
    .wait made le_rfl (show SlidingWindow.wait _ _ = .ok (_, 0) from rfl)
  have used : Used 1 1 (⟨1, 1, [1]⟩ : SlidingWindow Int) [1] 1 false :=
    .record asked (show (0 : Int) ≤ 1 by decide)
  exact ⟨used, by decide, by decide, used.window_counts (by decide)⟩

end Used

end WebHarvest.RateLimit.SlidingWindow
