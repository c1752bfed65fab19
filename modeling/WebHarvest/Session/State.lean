import WebHarvest.Config.Check
import WebHarvest.Json.Plain
import WebHarvest.Json.Reader

/-!
# Session states

What is kept of a browser session: its cookies and, for each origin, what was stored there.
-/

set_option autoImplicit false

namespace WebHarvest

structure SessionState where
  cookies : List Record := []
  origins : List Record := []

namespace SessionState

open Check

def check (form : InputForm) (value : Value) : Checked SessionState :=
  (fields "SessionState" form value).andThen fun entries =>
    mk <$> field entries "cookies" (list form (Check.record form)) (.accepted [])
      <*> field entries "origins" (list form (Check.record form)) (.accepted [])

def record (state : SessionState) : Record :=
  [("cookies", .list (state.cookies.map .record)), ("origins", .list (state.origins.map .record))]

def ofValue (value : Value) : Except Failure SessionState :=
  (check .host value).validated "SessionState"

def text (state : SessionState) : Except Failure String :=
  Except.mapError .notJson do
    let cookies ← state.cookies.mapM Json.plainRecord
    let origins ← state.origins.mapM Json.plainRecord
    Json.write Json.sessionStyle (.record [("cookies", .list cookies), ("origins", .list origins)])

def ofText (text : String) : Except Failure SessionState :=
  (match Json.read .guarded text with
    | .ok value => check .json value
    | .error _ => Checked.fail .jsonInvalid).validated "SessionState"

end SessionState

end WebHarvest
