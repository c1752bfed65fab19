import Mathlib.Algebra.Order.Ring.Int
import Mathlib.Data.List.TakeWhile
import Mathlib.Tactic.Linarith
import WebHarvest.RateLimit.Window

/-!
# What a sliding window keeps

On an exact time scale a window holds the end of the history of its stamps. What it has dropped no
longer counts, it never holds more stamps than its quota, and stamps that are a quota apart are at
least the length of the window apart in time.
-/

set_option autoImplicit false

namespace WebHarvest

/-- A time scale whose arithmetic is that of an ordered ring, and on which no span is too long. -/
class ExactScale (τ : Type) [CommRing τ] [LinearOrder τ] extends TimeScale τ where
  unit : τ
  unit_pos : 0 < unit
  span_eq : ∀ millis, span millis = .ok (millis * unit)
  zero_eq : zero = 0
  plus_eq : ∀ s t, plus s t = s + t
  minus_eq : ∀ s t, minus s t = s - t
  atMost_eq : ∀ s t, atMost s t = decide (s ≤ t)

/-- Microseconds are exact. -/
instance ExactScale.ofMicros : ExactScale Int where
  toTimeScale := TimeScale.exact
  unit := 1000
  unit_pos := by decide
  span_eq _ := rfl
  zero_eq := rfl
  plus_eq _ _ := rfl
  minus_eq _ _ := rfl
  atMost_eq _ _ := rfl

theorem dropWhile_eq_filter {τ : Type} [LinearOrder τ] {stamps : List τ}
    (sorted : stamps.Pairwise (· ≤ ·)) (bound : τ) :
    (stamps.dropWhile fun stamp => decide (stamp ≤ bound)) =
      stamps.filter fun stamp => decide (bound < stamp) := by
  induction stamps with
  | nil => rfl
  | cons stamp rest ih =>
      obtain ⟨before, restSorted⟩ := List.pairwise_cons.mp sorted
      by_cases old : stamp ≤ bound
      · rw [List.dropWhile_cons_of_pos (by simpa using old), ih restSorted,
          List.filter_cons_of_neg (by simpa using old)]
      · rw [List.dropWhile_cons_of_neg (by simpa using old), List.filter_eq_self.mpr]
        intro later member
        have recent : bound < stamp := not_le.mp old
        rcases List.mem_cons.mp member with rfl | member
        · exact decide_eq_true recent
        · exact decide_eq_true (lt_of_lt_of_le recent (before later member))

theorem pairwise_concat {τ : Type} [LinearOrder τ] {stamps : List τ} {last : τ}
    (sorted : stamps.Pairwise (· ≤ ·)) (bounded : ∀ stamp ∈ stamps, stamp ≤ last) :
    (stamps ++ [last]).Pairwise (· ≤ ·) := by
  rw [List.pairwise_append]
  refine ⟨sorted, List.pairwise_singleton _ _, fun stamp member other isLast => ?_⟩
  rw [List.mem_singleton.mp isLast]
  exact bounded stamp member

/-- What two choices cover together is at most what they count. -/
theorem countP_le_add {α : Type} {stamps : List α} {chosen left right : α → Bool}
    (covers : ∀ stamp, chosen stamp = true → left stamp = true ∨ right stamp = true) :
    stamps.countP chosen ≤ stamps.countP left + stamps.countP right := by
  induction stamps with
  | nil => exact Nat.zero_le _
  | cons stamp rest ih =>
      simp only [List.countP_cons]
      by_cases isChosen : chosen stamp = true
      · rcases covers stamp isChosen with isLeft | isRight
        · simp only [isChosen, isLeft, if_true]
          omega
        · simp only [isChosen, isRight, if_true]
          omega
      · simp only [isChosen, Bool.false_eq_true, if_false]
        omega

namespace RateLimit

variable {τ : Type} [CommRing τ] [LinearOrder τ]

/-- Stamps that are `quota` apart in the list are at least `length` apart in time. -/
def Spaced (quota : Nat) (length : τ) (stamps : List τ) : Prop :=
  ∀ i (inside : i + quota < stamps.length), length ≤ stamps[i + quota] - stamps[i]

section Spacing

variable {quota : Nat} {length : τ} {stamps : List τ}

theorem Spaced.tail {stamp : τ} (spaced : Spaced quota length (stamp :: stamps)) :
    Spaced quota length stamps := by
  intro i inside
  have above := spaced (i + 1) (by simp only [List.length_cons]; omega)
  have shift : i + 1 + quota = i + quota + 1 := by omega
  simpa only [shift, List.getElem_cons_succ] using above

variable [IsStrictOrderedRing τ]

/-- No more than `quota` of the stamps lie within less than the length of each other. -/
theorem Spaced.countP_le (spaced : Spaced quota length stamps)
    (sorted : stamps.Pairwise (· ≤ ·)) {chosen : τ → Bool}
    (narrow : ∀ s t, chosen s = true → chosen t = true → t - s < length) :
    stamps.countP chosen ≤ quota := by
  induction stamps with
  | nil => exact Nat.zero_le _
  | cons first rest ih =>
      by_cases isChosen : chosen first = true
      · -- From place `quota` on, everything is too far from the first stamp.
        have beyond : ((first :: rest).drop quota).countP chosen = 0 := by
          rw [List.countP_eq_zero]
          intro stamp member alsoChosen
          obtain ⟨place, within, rfl⟩ := List.mem_iff_getElem.mp member
          rw [List.length_drop] at within
          rw [List.getElem_drop] at alsoChosen
          have far := spaced 0 (by omega)
          have ordered : (first :: rest)[0 + quota] ≤ (first :: rest)[quota + place] := by
            rcases Nat.eq_zero_or_pos place with none | some
            · subst none
              simp only [Nat.zero_add, Nat.add_zero, le_refl]
            · exact List.pairwise_iff_getElem.mp sorted (0 + quota) (quota + place) (by omega)
                (by omega) (by omega)
          have near := narrow first _ isChosen alsoChosen
          rw [List.getElem_cons_zero] at far
          linarith
        calc (first :: rest).countP chosen
            = ((first :: rest).take quota ++ (first :: rest).drop quota).countP chosen := by
              rw [List.take_append_drop]
          _ = ((first :: rest).take quota).countP chosen := by
              rw [List.countP_append, beyond, Nat.add_zero]
          _ ≤ ((first :: rest).take quota).length := List.countP_le_length
          _ ≤ quota := List.length_take_le _ _
      · rw [List.countP_cons_of_neg isChosen]
        exact ih spaced.tail (List.pairwise_cons.mp sorted).2

/-- No half-open interval of the length holds more than `quota` of the stamps. -/
theorem Spaced.interval_le (spaced : Spaced quota length stamps)
    (sorted : stamps.Pairwise (· ≤ ·)) (start : τ) :
    stamps.countP (fun stamp => decide (start ≤ stamp ∧ stamp < start + length)) ≤ quota := by
  refine spaced.countP_le sorted fun s t fromStart toEnd => ?_
  have below := (of_decide_eq_true fromStart).1
  have above := (of_decide_eq_true toEnd).2
  linarith

theorem Spaced.recent_le (spaced : Spaced quota length stamps)
    (sorted : stamps.Pairwise (· ≤ ·)) (lengths : Nat) (now : τ) :
    stamps.countP (fun stamp => decide (now - lengths * length < stamp ∧ stamp ≤ now)) ≤
      lengths * quota := by
  induction lengths with
  | zero =>
      rw [Nat.zero_mul, Nat.le_zero, List.countP_eq_zero]
      intro stamp _ chosen
      obtain ⟨after, before⟩ := of_decide_eq_true chosen
      simp only [Nat.cast_zero, zero_mul, sub_zero] at after
      exact absurd before (not_le.mpr after)
  | succ lengths ih =>
      let earlier (stamp : τ) : Bool :=
        decide (now - lengths * length - length < stamp ∧ stamp ≤ now - lengths * length)
      have oldest : stamps.countP earlier ≤ quota := by
        refine spaced.countP_le sorted fun s t isEarlier alsoEarlier => ?_
        have below := (of_decide_eq_true isEarlier).1
        have above := (of_decide_eq_true alsoEarlier).2
        linarith
      have covered : stamps.countP (fun stamp =>
            decide (now - (lengths + 1 : Nat) * length < stamp ∧ stamp ≤ now)) ≤
          stamps.countP (fun stamp => decide (now - lengths * length < stamp ∧ stamp ≤ now)) +
            stamps.countP earlier := by
        refine countP_le_add fun stamp isChosen => ?_
        obtain ⟨after, before⟩ := of_decide_eq_true isChosen
        rw [Nat.cast_add_one, add_one_mul, ← sub_sub] at after
        by_cases recent : now - lengths * length < stamp
        · exact Or.inl (decide_eq_true ⟨recent, before⟩)
        · exact Or.inr (decide_eq_true ⟨after, not_lt.mp recent⟩)
      calc stamps.countP _ ≤ _ := covered
        _ ≤ lengths * quota + quota := Nat.add_le_add ih oldest
        _ = (lengths + 1) * quota := (Nat.succ_mul _ _).symm

end Spacing

namespace SlidingWindow

variable [ExactScale τ]

def length (window : SlidingWindow τ) : τ := window.windowMs * ExactScale.unit

def counting (window : SlidingWindow τ) (now : τ) : List τ :=
  window.stamps.dropWhile fun stamp => decide (stamp ≤ now - window.length)

theorem purge_eq (window : SlidingWindow τ) (now : τ) :
    window.purge now = .ok { window with stamps := window.counting now } := by
  simp only [purge, ExactScale.span_eq, ExactScale.minus_eq, ExactScale.atMost_eq, counting,
    length]
  rfl

/-- While there is room, nobody has to wait. -/
theorem wait_of_room {window : SlidingWindow τ} {now : τ}
    (room : (window.counting now).length < window.quota) :
    window.wait now = .ok ({ window with stamps := window.counting now }, 0) := by
  rw [wait, purge_eq, ← ExactScale.zero_eq]
  cases kept : window.counting now with
  | nil => simp [bind, Except.bind, pure, Except.pure]
  | cons oldest rest =>
      rw [kept] at room
      simp only [bind, Except.bind, pure, Except.pure, if_pos room]

/-- In a full window one has to wait until the oldest stamp stops counting. -/
theorem wait_of_full [IsStrictOrderedRing τ] {window : SlidingWindow τ} {now : τ}
    (positive : 0 < window.quota) (full : window.quota ≤ (window.counting now).length) :
    ∃ oldest rest, window.counting now = oldest :: rest ∧ now < oldest + window.length ∧
      window.wait now =
        .ok ({ window with stamps := window.counting now }, oldest + window.length - now) := by
  cases kept : window.counting now with
  | nil =>
      rw [kept] at full
      exact absurd full (not_le.mpr positive)
  | cons oldest rest =>
      have counts : now < oldest + window.length := by
        have survives : ¬ oldest ≤ now - window.length := by
          have first := List.head?_dropWhile_not
            (fun stamp => decide (stamp ≤ now - window.length)) window.stamps
          rw [← counting, kept] at first
          simpa using first
        exact sub_lt_iff_lt_add.mp (not_le.mp survives)
      refine ⟨oldest, rest, rfl, counts, ?_⟩
      rw [kept] at full
      rw [wait, purge_eq, kept]
      have later : ¬ oldest + window.windowMs * ExactScale.unit - now ≤ 0 :=
        not_le.mpr (sub_pos.mpr counts)
      simp only [bind, Except.bind, pure, Except.pure, if_neg (not_lt.mpr full),
        ExactScale.span_eq, ExactScale.atMost_eq, ExactScale.zero_eq, ExactScale.plus_eq,
        ExactScale.minus_eq, later, decide_false, Bool.false_eq_true, if_false, length]

/-- While there is room, a request is let through and remembered. -/
theorem poll_of_room {window : SlidingWindow τ} {checked : τ}
    (room : (window.counting checked).length < window.quota) (recorded : τ) :
    window.poll checked recorded =
      .ok ({ window with stamps := window.counting checked ++ [recorded] }, none) := by
  rw [poll, wait_of_room room]
  simp [bind, Except.bind, pure, Except.pure, ExactScale.atMost_eq, ExactScale.zero_eq, record]

/-- In a full window a request has to wait until the oldest stamp stops counting. -/
theorem poll_of_full [IsStrictOrderedRing τ] {window : SlidingWindow τ} {checked : τ}
    (positive : 0 < window.quota) (full : window.quota ≤ (window.counting checked).length)
    (recorded : τ) :
    ∃ oldest rest, window.counting checked = oldest :: rest ∧
      checked < oldest + window.length ∧
      window.poll checked recorded =
        .ok ({ window with stamps := window.counting checked },
          some (oldest + window.length - checked)) := by
  obtain ⟨oldest, rest, kept, counts, waits⟩ := wait_of_full positive full
  refine ⟨oldest, rest, kept, counts, ?_⟩
  have late : ¬ oldest + window.length - checked ≤ 0 := not_le.mpr (sub_pos.mpr counts)
  rw [poll, waits]
  simp only [bind, Except.bind, pure, Except.pure, ExactScale.atMost_eq, ExactScale.zero_eq,
    late, decide_false, Bool.false_eq_true, if_false]

/-- What a window knows at a time of a history of stamps: it holds the end of it. -/
structure Remembers (window : SlidingWindow τ) (history : List τ) (now : τ) : Prop where
  sorted : history.Pairwise (· ≤ ·)
  past : ∀ stamp ∈ history, stamp ≤ now
  /-- What was dropped no longer counts. -/
  held : ∃ dropped, history = dropped ++ window.stamps ∧
    ∀ stamp ∈ dropped, stamp ≤ now - window.length

namespace Remembers

variable {window : SlidingWindow τ} {history : List τ} {now : τ}

theorem later [IsStrictOrderedRing τ] (remembers : Remembers window history now) {after : τ}
    (ordered : now ≤ after) : Remembers window history after where
  sorted := remembers.sorted
  past stamp member := le_trans (remembers.past stamp member) ordered
  held := by
    obtain ⟨dropped, split, expired⟩ := remembers.held
    exact ⟨dropped, split, fun stamp member =>
      le_trans (expired stamp member) (sub_le_sub_right ordered _)⟩

theorem counting_eq_filter (remembers : Remembers window history now) :
    window.counting now = history.filter fun stamp => decide (now - window.length < stamp) := by
  obtain ⟨dropped, rfl, expired⟩ := remembers.held
  have none : dropped.filter (fun stamp => decide (now - window.length < stamp)) = [] := by
    rw [List.filter_eq_nil_iff]
    intro stamp member recent
    exact absurd (of_decide_eq_true recent) (not_lt.mpr (expired stamp member))
  have sorted := (List.pairwise_append.mp remembers.sorted).2.1
  rw [List.filter_append, none, List.nil_append, counting, dropWhile_eq_filter sorted]

theorem purged (remembers : Remembers window history now) :
    Remembers { window with stamps := window.counting now } history now where
  sorted := remembers.sorted
  past := remembers.past
  held := by
    obtain ⟨dropped, split, expired⟩ := remembers.held
    have parts := List.takeWhile_append_dropWhile
      (p := fun stamp => decide (stamp ≤ now - window.length)) (l := window.stamps)
    refine ⟨dropped ++ window.stamps.takeWhile fun stamp => decide (stamp ≤ now - window.length),
      ?_, ?_⟩
    · rw [List.append_assoc, counting, parts, split]
    · intro stamp member
      rcases List.mem_append.mp member with old | dropping
      · exact expired stamp old
      · have old : stamp ≤ now - window.length := by
          simpa using List.mem_takeWhile_imp dropping
        exact old

theorem record [IsStrictOrderedRing τ] (remembers : Remembers window history now) {recorded : τ}
    (ordered : now ≤ recorded) :
    Remembers (window.record recorded) (history ++ [recorded]) recorded := by
  have remembered := remembers.later ordered
  obtain ⟨dropped, split, expired⟩ := remembered.held
  refine ⟨pairwise_concat remembers.sorted remembered.past, ?_, dropped, ?_, expired⟩
  · intro stamp member
    rcases List.mem_append.mp member with old | new
    · exact remembered.past stamp old
    · exact le_of_eq (List.mem_singleton.mp new)
  · rw [split, SlidingWindow.record, List.append_assoc]

theorem recorded [IsStrictOrderedRing τ] (remembers : Remembers window history now) {recorded : τ}
    (ordered : now ≤ recorded) :
    Remembers { window with stamps := window.counting now ++ [recorded] } (history ++ [recorded])
      recorded :=
  remembers.purged.record ordered

end Remembers

/-- What a window knows at a time of all the stamps it was ever given. -/
structure Keeps (window : SlidingWindow τ) (history : List τ) (now : τ) : Prop where
  sorted : history.Pairwise (· ≤ ·)
  past : ∀ stamp ∈ history, stamp ≤ now
  /-- What was dropped no longer counts. -/
  held : ∃ dropped, history = dropped ++ window.stamps ∧
    ∀ stamp ∈ dropped, stamp ≤ now - window.length
  within : window.stamps.length ≤ window.quota
  spaced : Spaced window.quota window.length history

namespace Keeps

variable {window : SlidingWindow τ} {history : List τ} {now : τ}

theorem new (quota : Nat) (windowMs : Int) (now : τ) :
    Keeps (⟨quota, windowMs, []⟩ : SlidingWindow τ) [] now where
  sorted := List.Pairwise.nil
  past _ member := by cases member
  held := ⟨[], rfl, fun _ member => by cases member⟩
  within := Nat.zero_le _
  spaced _ inside := absurd inside (by simp)

theorem remembers (keeps : Keeps window history now) : Remembers window history now :=
  ⟨keeps.sorted, keeps.past, keeps.held⟩

theorem later [IsStrictOrderedRing τ] (keeps : Keeps window history now) {after : τ}
    (ordered : now ≤ after) : Keeps window history after :=
  { keeps.remembers.later ordered with
    within := keeps.within
    spaced := keeps.spaced }

theorem counting_eq_filter (keeps : Keeps window history now) :
    window.counting now = history.filter fun stamp => decide (now - window.length < stamp) :=
  keeps.remembers.counting_eq_filter

theorem purged (keeps : Keeps window history now) :
    Keeps { window with stamps := window.counting now } history now :=
  { keeps.remembers.purged with
    within := le_trans (List.dropWhile_sublist _).length_le keeps.within
    spaced := keeps.spaced }

/-- What is recorded while there is room keeps its distance from what was recorded before. -/
theorem record [IsStrictOrderedRing τ] (keeps : Keeps window history now)
    (room : window.stamps.length < window.quota) {recorded : τ} (ordered : now ≤ recorded) :
    Keeps (window.record recorded) (history ++ [recorded]) recorded := by
  obtain ⟨dropped, split, expired⟩ := keeps.held
  have remembers := keeps.remembers.record ordered
  refine ⟨remembers.sorted, remembers.past, remembers.held, ?_, ?_⟩
  · rw [SlidingWindow.record, List.length_append, List.length_singleton]
    exact room
  · intro i inside
    change i + window.quota < (history ++ [recorded]).length at inside
    change window.length ≤ (history ++ [recorded])[i + window.quota] - (history ++ [recorded])[i]
    have bound : i + window.quota < history.length + 1 := by
      simpa only [List.length_append, List.length_singleton] using inside
    have some : 0 < window.quota := Nat.zero_lt_of_lt room
    rw [List.getElem_append_left (show i < history.length by omega)]
    by_cases old : i + window.quota < history.length
    · rw [List.getElem_append_left old]
      exact keeps.spaced i old
    · -- The new stamp: the one a quota before it is among those that no longer count.
      have last : i + window.quota = history.length := by omega
      have total : history.length = dropped.length + window.stamps.length := by
        rw [← List.length_append, ← split]
      have early : i < dropped.length := by omega
      have gone : history[i] ≤ now - window.length := by
        have member : history[i] ∈ dropped := by
          rw [List.getElem_of_eq split, List.getElem_append_left early]
          exact List.getElem_mem early
        exact expired _ member
      rw [List.getElem_concat_length last]
      calc window.length = now - (now - window.length) := (sub_sub_cancel _ _).symm
        _ ≤ recorded - (now - window.length) := sub_le_sub_right ordered _
        _ ≤ recorded - history[i] := sub_le_sub_left gone _

/-- A request that is let through while there is room keeps its distance from those before it. -/
theorem recorded [IsStrictOrderedRing τ] (keeps : Keeps window history now)
    (room : (window.counting now).length < window.quota) {recorded : τ}
    (ordered : now ≤ recorded) :
    Keeps { window with stamps := window.counting now ++ [recorded] } (history ++ [recorded])
      recorded :=
  keeps.purged.record room ordered

end Keeps

end SlidingWindow

end RateLimit

end WebHarvest
