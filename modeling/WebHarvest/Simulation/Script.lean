import WebHarvest.Failure

/-!
# Scripts

A script says how the calls of a simulated party go, one turn for each call: how long it takes and
whether it fails.
-/

set_option autoImplicit false

namespace WebHarvest.Simulation

/-- One turn of a script. Without a delay the call does not wait at all, which differs from a delay
of zero; without an outcome it succeeds with a result of its own. -/
structure Turn where
  delay : Option Int := none
  outcome : Option (Except Failure Value) := none

/-- The turns that are left of every party, by name. -/
abbrev Script := List (String × List Turn)

namespace Script

/-- Whether a script knows a name, even with no turns left. -/
def knows (script : Script) (name : String) : Bool := script.any (·.1 == name)

/-- Takes the next turn of a name; without one, a turn that does nothing special. -/
def next (script : Script) (name : String) : Turn × Script :=
  match (script.find? (·.1 == name)).map (·.2) with
  | some (turn :: _) =>
      (turn, script.map fun (n, turns) => if n == name then (n, turns.drop 1) else (n, turns))
  | _ => ({}, script)

end Script

end WebHarvest.Simulation
