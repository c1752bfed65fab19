import WebHarvest.Program.Basic

/-!
# Restoring sessions

A saved session becomes the beginning of a new browser context.
-/

set_option autoImplicit false

namespace WebHarvest.Session

def newContext (id : String) (options : Record) : Action Unit := do
  let state ← Action.loadSession id
  let _ ← Action.browser (.newContext (("storage_state", state) :: options))

end WebHarvest.Session
