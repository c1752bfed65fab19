import WebHarvest.Config.Check

/-!
# Outcomes of steps that may fail

A sequence of steps succeeds when each of them does, and so does a check of many values.
-/

set_option autoImplicit false

namespace WebHarvest

namespace Outcome

variable {ε α β : Type}

theorem bind_ok_iff {first : Except ε α} {next : α → Except ε β} {result : β} :
    first >>= next = .ok result ↔ ∃ value, first = .ok value ∧ next value = .ok result := by
  cases first with
  | error failure => simp [bind, Except.bind]
  | ok value => simp [bind, Except.bind]

theorem bind_error_iff {first : Except ε α} {next : α → Except ε β} {failure : ε} :
    first >>= next = .error failure ↔
      first = .error failure ∨ ∃ value, first = .ok value ∧ next value = .error failure := by
  cases first with
  | error failure => simp [bind, Except.bind]
  | ok value => simp [bind, Except.bind]

theorem mapM_ok {γ : Type} {step : α → Except ε β} {said : β → γ} {meant : α → γ}
    (each : ∀ item, ∃ result, step item = .ok result ∧ said result = meant item)
    (items : List α) :
    ∃ results, items.mapM step = .ok results ∧ results.map said = items.map meant := by
  induction items with
  | nil => exact ⟨[], rfl, rfl⟩
  | cons item rest ih =>
      obtain ⟨result, done, tells⟩ := each item
      obtain ⟨results, allDone, allTell⟩ := ih
      refine ⟨result :: results, ?_, by simp only [List.map_cons, tells, allTell]⟩
      rw [List.mapM_cons, done, allDone]
      rfl

theorem mapM_ok_forall {step : α → Except ε β} {property : β → Prop}
    (each : ∀ item, ∃ result, step item = .ok result ∧ property result) (items : List α) :
    ∃ results, items.mapM step = .ok results ∧ results.length = items.length ∧
      ∀ result ∈ results, property result := by
  induction items with
  | nil => exact ⟨[], rfl, rfl, fun _ member => by cases member⟩
  | cons item rest ih =>
      obtain ⟨result, done, holds⟩ := each item
      obtain ⟨results, allDone, count, allHold⟩ := ih
      refine ⟨result :: results, ?_, by simp [count], List.forall_mem_cons.mpr ⟨holds, allHold⟩⟩
      rw [List.mapM_cons, done, allDone]
      rfl

end Outcome

theorem Checked.all_accepted {α : Type} (results : List α) :
    Checked.all (results.map .accepted) = .accepted results := by
  induction results with
  | nil => rfl
  | cons result rest ih =>
      rw [List.map_cons, Checked.all, ih]
      rfl

namespace Check

theorem record_record (form : InputForm) (record : Record) :
    Check.record form (.record record) = .accepted record := by
  unfold Check.record Check.mapping Value.record
  dsimp only
  rw [List.map_map]
  exact Checked.all_accepted record

theorem list_record (form : InputForm) (records : List Record) :
    Check.list form (Check.record form) (.list (records.map Value.record)) =
      .accepted records := by
  have each : (records.map Value.record).mapIdx
      (fun index item => (Check.record form item).under (.index index)) =
        records.map .accepted := by
    refine List.ext_getElem (by simp) fun index inside _ => ?_
    simp only [List.getElem_mapIdx, List.getElem_map, record_record]
    rfl
  unfold Check.list
  dsimp only
  rw [each, Checked.all_accepted]

end Check

end WebHarvest
