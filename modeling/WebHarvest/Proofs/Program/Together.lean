import WebHarvest.Proofs.Batch.Courses
import WebHarvest.Proofs.Program.Track

/-!
# Programs that all come to their end

When all programs that run together have ended, whatever they have heard can be put together from
whole runs of them, one for each.
-/

set_option autoImplicit false

namespace WebHarvest.Moment

variable {σ α : Type}

/-- What has been heard of programs that run together, in the order of the replies. -/
def exchanges (host : Host σ) (wakeups : Nat) (stops : α → Bool) (moment : Moment σ)
    (programs : List (Program α)) : List Exchange :=
  heard (moment.watch host wakeups stops programs).log

/-- The wake-ups suffice for all programs to end. -/
def Finishes (host : Host σ) (wakeups : Nat) (stops : α → Bool) (moment : Moment σ)
    (programs : List (Program α)) : Prop :=
  (moment.runAll host wakeups stops programs).2.length = programs.length

/-- Runs programs together. The results are in the order of the programs; there is none for a
program that has not ended. -/
def together (host : Host σ) (wakeups : Nat) (moment : Moment σ) (programs : List (Program α)) :
    Moment σ × List (Option α) :=
  let (after, finished) := moment.runAll host wakeups (fun _ => false) programs
  (after, (List.range programs.length).map fun task =>
    (finished.find? (·.1 == task)).map (·.2))

variable {host : Host σ} {wakeups : Nat} {stops : α → Bool} {moment : Moment σ}
variable {programs : List (Program α)}

/-- Whatever has been heard, and whether or not the programs have ended, was asked for by one of
them. -/
theorem exchanges_of_asks {allowed : Request → Prop}
    (asks : ∀ program ∈ programs, program.Asks allowed) :
    ∀ exchange ∈ moment.exchanges host wakeups stops programs, allowed exchange.request := by
  intro exchange member
  have tracked := moment.watch_tracked host wakeups stops programs
  obtain ⟨entry, among, shown⟩ := List.mem_filterMap.mp member
  obtain ⟨rest, ⟨program, isProgram, reaches⟩, -⟩ :=
    tracked.past _ List.prefix_rfl entry.task (tracked.inside entry among)
  have own : exchange ∈ heardBy entry.task (moment.watch host wakeups stops programs).log :=
    List.mem_filterMap.mpr ⟨entry, List.mem_filter.mpr ⟨among, beq_self_eq_true _⟩, shown⟩
  exact (asks program (List.mem_of_getElem? isProgram)).reaches_mem reaches exchange own

theorem nobody_of_finishes (alone : moment.strays = [])
    (finishes : moment.Finishes host wakeups stops programs) :
    (moment.watch host wakeups stops programs).waiters = [] := by
  have tasks := (moment.watch_tracked host wakeups stops programs).tasks.length_eq
  rw [Finishes, watch_runAll alone] at finishes
  simp only [List.length_append, List.length_map, List.length_range, finishes] at tasks
  exact List.length_eq_zero_iff.mp (by omega)

theorem alone_of_finishes (alone : moment.strays = [])
    (finishes : moment.Finishes host wakeups stops programs) :
    (moment.runAll host wakeups stops programs).1.strays = [] := by
  rw [watch_runAll alone]
  simp only [Schedule.rest, Scene.schedule, nobody_of_finishes alone finishes, List.map_nil,
    List.append_nil]

theorem tasks_of_finishes (alone : moment.strays = [])
    (finishes : moment.Finishes host wakeups stops programs) :
    ((moment.runAll host wakeups stops programs).2.map (·.1)).Perm
      (List.range programs.length) := by
  have tasks := (moment.watch_tracked host wakeups stops programs).tasks
  rw [(moment.watch_run host wakeups stops programs).1, nobody_of_finishes alone finishes] at tasks
  rw [watch_runAll alone]
  exact tasks

/-- Every program has run to its end, and what has been heard is what they have heard. -/
theorem runs_of_finishes (alone : moment.strays = [])
    (finishes : moment.Finishes host wakeups stops programs) :
    ∃ courses : List (List Exchange × α),
      List.Forall₂ (fun program course => program.Runs course.1 course.2) programs courses ∧
      (moment.exchanges host wakeups stops programs).Perm (courses.flatMap (·.1)) ∧
      ∀ (task : Nat) (inside : task < courses.length),
        (task, courses[task].2) ∈ (moment.runAll host wakeups stops programs).2 := by
  have tracked := moment.watch_tracked host wakeups stops programs
  have tasks := tasks_of_finishes alone finishes
  rw [watch_runAll alone] at tasks ⊢
  let scene := moment.watch host wakeups stops programs
  have each (task : Fin programs.length) : ∃ result, (task.val, result) ∈ scene.finished ∧
      programs[task].Runs (heardBy task scene.log) result := by
    have member : task.val ∈ scene.finished.map (·.1) :=
      tasks.mem_iff.mpr (List.mem_range.mpr task.isLt)
    obtain ⟨⟨_, result⟩, ended, rfl⟩ := List.mem_map.mp member
    obtain ⟨program, isProgram, runs⟩ := tracked.runs ended
    obtain ⟨_, rfl⟩ := List.getElem?_eq_some_iff.mp isProgram
    exact ⟨result, ended, runs⟩
  choose result ended runs using each
  refine ⟨List.ofFn fun task => (heardBy task scene.log, result task), ?_, ?_, ?_⟩
  · refine List.forall₂_iff_get.mpr ⟨List.length_ofFn.symm, fun task inside _ => ?_⟩
    simpa using runs ⟨task, inside⟩
  · refine (heard_perm tracked.inside).trans (.of_eq ?_)
    rw [List.flatMap_def, List.flatMap_def, List.map_ofFn]
    congr 1
    exact List.ext_getElem (by simp) (by simp [scene])
  · intro task inside
    rw [List.length_ofFn] at inside
    simpa using ended ⟨task, inside⟩

theorem together_of_finishes (alone : moment.strays = [])
    (finishes : moment.Finishes host wakeups (fun _ => false) programs) :
    ∃ courses : List (List Exchange × α),
      List.Forall₂ (fun program course => program.Runs course.1 course.2) programs courses ∧
      (moment.exchanges host wakeups (fun _ => false) programs).Perm (courses.flatMap (·.1)) ∧
      (moment.together host wakeups programs).2 = courses.map fun course => some course.2 := by
  obtain ⟨courses, runs, heard, ended⟩ := runs_of_finishes alone finishes
  refine ⟨courses, runs, heard, ?_⟩
  have once := (tasks_of_finishes alone finishes).nodup_iff.mpr List.nodup_range
  refine List.ext_getElem ?_ fun task inside _ => ?_
  · rw [together, List.length_map, List.length_range, List.length_map, runs.length_eq]
  · rw [together, List.length_map, List.length_range, runs.length_eq] at inside
    simp only [together, List.getElem_map, List.getElem_range,
      Batch.find?_of_member once (ended task inside), Option.map_some]

/-- An action that is performed to its end has run, and it comes to what it has run to. -/
theorem perform_of_finishes {action : Action α} (alone : moment.strays = [])
    (finishes : moment.Finishes host wakeups (fun _ => false) [action.run]) :
    ∃ trace, action.Runs trace (moment.perform host wakeups action).2 ∧
      (moment.exchanges host wakeups (fun _ => false) [action.run]).Perm trace ∧
      (moment.perform host wakeups action).1.strays = [] := by
  obtain ⟨courses, runs, heard, ended⟩ := runs_of_finishes alone finishes
  obtain ⟨course, courses, ran, rest, rfl⟩ := List.forall₂_cons_left_iff.mp runs
  obtain rfl := List.forall₂_nil_left_iff.mp rest
  obtain ⟨last, only⟩ := List.length_eq_one_iff.mp finishes
  have member := ended 0 Nat.zero_lt_one
  rw [only] at member
  obtain rfl := List.mem_singleton.mp member
  have result : (moment.perform host wakeups action).2 = course.2 := by
    simp only [perform, run, only]
    rfl
  refine ⟨course.1, result ▸ ran, ?_, alone_of_finishes alone finishes⟩
  rwa [List.flatMap_singleton] at heard

end WebHarvest.Moment
