import WebHarvest.Config.Harvester
import WebHarvest.Proofs.Config.Yields

/-!
# Timeouts that pass a check

A configuration has a positive timeout, whether it is given or comes from the environment, and so
have the options of one harvest when they have one. Nothing is said of the timeout for the selector
that options wait for: its check takes every integer.
-/

set_option autoImplicit false

namespace WebHarvest

open Check

open Checked (Yields)

namespace HarvesterConfig

theorem positiveTimeout_yields (n : Int) : (positiveTimeout n).Yields (0 < ·) := by
  unfold positiveTimeout
  split
  · exact Checked.yields_accepted (by omega)
  · exact Checked.yields_fail _

theorem timeoutDefault_yields (environment : Environment) :
    (timeoutDefault environment).Yields (0 < ·) := by
  unfold timeoutDefault
  dsimp only
  split
  · exact (positiveTimeout_yields _).under _
  · exact Checked.yields_broken _
  · exact Checked.yields_broken _

/-- A configuration that is accepted has a positive timeout. -/
theorem timeout_positive {environment : Environment} {value : Value} {config : HarvesterConfig}
    (accepts : check environment value = .accepted config) : 0 < config.timeoutMs := by
  have yields : (check environment value).Yields fun config => 0 < config.timeoutMs := by
    refine Yields.andThen fun entries => ?_
    iterate 16 apply Yields.skip
    refine Yields.seq (field_yields (fun _ _ => Yields.andThen positiveTimeout_yields)
      (timeoutDefault_yields environment)) (Yields.map fun _ _ _ positive => ?_)
    intros
    exact positive
  exact yields config accepts

end HarvesterConfig

namespace HarvestOptions

/-- The options were made from entries that passed their check. -/
def Validated (options : HarvestOptions) : Prop :=
  ∃ entries, check (.map entries) = .accepted options

/-- Options that are accepted have a positive timeout if they have one. -/
theorem Validated.timeout_positive {options : HarvestOptions} (validated : options.Validated)
    {ms : Nat} (given : options.timeoutMs = some ms) : 0 < ms := by
  obtain ⟨entries, accepts⟩ := validated
  have yields : (check (.map entries)).Yields fun options =>
      ∀ ms, options.timeoutMs = some ms → 0 < ms := by
    simp only [check]
    refine Yields.andThen fun entries => ?_
    iterate 4 apply Yields.skip
    refine Yields.seq (field_yields (fun _ _ => nullable_yields (natAtLeast_yields 1) _)
      (Checked.yields_accepted nofun)) ?_
    iterate 4 apply Yields.skip
    refine Yields.map fun _ _ _ _ _ _ timeoutMs positive _ _ _ _ ms given => ?_
    exact positive ms given
  exact yields options accepts ms given

end HarvestOptions

end WebHarvest
