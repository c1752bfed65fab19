import WebHarvest.Proofs.Program.Alike
import WebHarvest.Proofs.Program.Gauge
import WebHarvest.Simulation.World

/-!
# Worlds that look alike

Nothing that a job asks for depends on how far batches are, on the log, or on the calls of the
progress callback: worlds that differ in these only answer in the same way.
-/

set_option autoImplicit false

namespace WebHarvest.Simulation.World

variable {τ : Type}

/-- The same world with other counts of settled jobs, another log and other calls of the progress
callback. -/
def marked (settled : List Nat) (logs : List LogRecord) (progress : List (Nat × Nat))
    (world : World τ) : World τ :=
  { world with settled, events := { world.events with logs, progress } }

def Resembles (world other : World τ) : Prop :=
  ∃ settled logs progress, other = world.marked settled logs progress

theorem Resembles.refl (world : World τ) : world.Resembles world := ⟨_, _, _, rfl⟩

theorem Resembles.trans {first second third : World τ} (one : first.Resembles second)
    (other : second.Resembles third) : first.Resembles third := by
  obtain ⟨_, _, _, rfl⟩ := one
  obtain ⟨_, _, _, rfl⟩ := other
  exact ⟨_, _, _, rfl⟩

section Marks

variable (settled : List Nat) (logs : List LogRecord) (progress : List (Nat × Nat))

end Marks

end WebHarvest.Simulation.World
