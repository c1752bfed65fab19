import WebHarvest.Batch
import WebHarvest.Config.Harvester
import WebHarvest.Session.Credentials
import WebHarvest.Session.State

/-!
# Models

All models by their names. Validation turns a value into a model, which is given here by the record
of its fields. The fields of a validated model can be set afterwards, without another validation,
unless the model is frozen.
-/

set_option autoImplicit false

namespace WebHarvest.Model

abbrev Reader := Environment → Value → Checked Record

private def reader {α : Type} (check : Value → Checked α) (record : α → Record) : Reader :=
  fun _ value => record <$> check value

def all : List (String × Reader) :=
  [("Viewport", reader Viewport.check Viewport.record),
    ("Geolocation", reader Geolocation.check Geolocation.record),
    ("ProxyConfig", reader ProxyConfig.check ProxyConfig.record),
    ("RateWindow", reader RateLimit.RateWindow.check RateLimit.RateWindow.record),
    ("RateLimitConfig", reader RateLimit.RateLimitConfig.check RateLimit.RateLimitConfig.record),
    ("RetryPolicy", reader RetryPolicy.check RetryPolicy.record),
    ("WaitForSelector", reader WaitForSelector.check WaitForSelector.record),
    ("ScreenshotOptions", reader ScreenshotOptions.check ScreenshotOptions.record),
    ("HarvestOptions", reader HarvestOptions.check HarvestOptions.record),
    ("BatchJob", reader BatchJob.check BatchJob.record),
    ("BatchOutcome", reader BatchOutcome.check BatchOutcome.record),
    ("SessionState", reader (SessionState.check .host) SessionState.record),
    ("Credentials", reader Credentials.check Credentials.record),
    ("LoginSelectors", reader LoginSelectors.check LoginSelectors.record),
    ("LoggingConfig", fun environment value =>
      LoggingConfig.record <$> LoggingConfig.check environment value),
    ("SessionConfig", fun environment value =>
      SessionConfig.record <$> SessionConfig.check environment value),
    ("HarvesterConfig", fun environment value =>
      HarvesterConfig.record <$> HarvesterConfig.check environment value)]

def validate (environment : Environment) (model : String) (value : Value) :
    Except Failure Record :=
  match all.find? (·.1 == model) with
  | some (_, read) => (read environment value).validated model
  | none => .error (.raised .key (some (.text model)))

def frozen : List String := ["RetryPolicy", "Signal"]

/-- What every model tells of itself and nobody can set. -/
def computed : List String := ["model_extra", "model_fields_set", "__fields_set__"]

/-- Sets a field of a model that is given by the record of its fields. A name that begins with an
underscore is not a field: setting it is allowed even on frozen models and leaves the fields as they
are. -/
def assign (model : String) (record : Record) (field : String) (value : Value) :
    Except Failure Record :=
  let hidden := field.startsWith "_"
  if frozen.contains model && !hidden then
    .error (.invalid model [{ place := [.name field], cause := .frozen }])
  else if computed.contains field then
    .error (.raise .attribute
      ("property '" ++ field ++ "' of '" ++ model ++ "' object has no setter"))
  else if hidden then .ok record
  else if record.any (·.1 == field) then .ok (Value.insertEntry field value record)
  else .error (.value ("\"" ++ model ++ "\" object has no field \"" ++ field ++ "\""))

end WebHarvest.Model
