import WebHarvest.Proofs.Outcome
import WebHarvest.Schema.Compile

/-!
# Steps of a compilation

A compilation succeeds when all its steps do, each one going on from the table of functions that the
step before it has left. It fails with the fault of the first step that does not succeed. These laws
take compilations apart, the first ones those that succeed and the others those that fail.
-/

set_option autoImplicit false

namespace WebHarvest.Schema.Compile

variable {α β : Type} {sources rest : List String} {result : α × List String} {fault : Fault}

@[simp] theorem run_pure_ok (value : α) :
    StateT.run (pure value : Compile α) sources = .ok result ↔ (value, sources) = result :=
  ⟨Except.ok.inj, congrArg Except.ok⟩

@[simp] theorem run_bind_ok (first : Compile β) (next : β → Compile α) :
    StateT.run (first >>= next) sources = .ok result ↔
      ∃ value middle, StateT.run first sources = .ok (value, middle) ∧
        StateT.run (next value) middle = .ok result := by
  rw [StateT.run_bind, Outcome.bind_ok_iff, Prod.exists]

@[simp] theorem run_check_ok (check : Except Fault α) (value : α) :
    StateT.run (liftM check : Compile α) sources = .ok (value, rest) ↔
      check = .ok value ∧ sources = rest := by
  cases check with
  | error fault =>
      constructor
      · intro finished
        cases finished
      · rintro ⟨finished, _⟩
        cases finished
  | ok found =>
      constructor
      · intro finished
        cases finished
        exact ⟨rfl, rfl⟩
      · rintro ⟨same, rfl⟩
        cases same
        rfl

@[simp] theorem run_throw_ok (fault : Fault) :
    ¬ StateT.run (throw fault : Compile α) sources = .ok result := by
  intro finished
  cases finished

@[simp] theorem run_pure_error (value : α) :
    ¬ StateT.run (pure value : Compile α) sources = .error fault := nofun

@[simp] theorem run_bind_error (first : Compile β) (next : β → Compile α) :
    StateT.run (first >>= next) sources = .error fault ↔
      StateT.run first sources = .error fault ∨
        ∃ value middle, StateT.run first sources = .ok (value, middle) ∧
          StateT.run (next value) middle = .error fault := by
  rw [StateT.run_bind, Outcome.bind_error_iff, Prod.exists]

@[simp] theorem run_check_error (check : Except Fault α) :
    StateT.run (liftM check : Compile α) sources = .error fault ↔ check = .error fault := by
  cases check with
  | error other => exact ⟨fun | rfl => rfl, fun | rfl => rfl⟩
  | ok found => exact ⟨nofun, nofun⟩

@[simp] theorem run_throw_error (thrown : Fault) :
    StateT.run (throw thrown : Compile α) sources = .error fault ↔ thrown = fault :=
  ⟨fun | rfl => rfl, fun | rfl => rfl⟩

end WebHarvest.Schema.Compile
