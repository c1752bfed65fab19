import WebHarvest.Config.Options
import WebHarvest.Telemetry
import WebHarvest.Text.LowerCase

/-!
# Configuration of a harvester

The root configuration and its parts. Some defaults come from environment variables, which are part
of the input here: a check sees the environment as a value.
-/

set_option autoImplicit false

namespace WebHarvest

open Check

abbrev Environment := List (String × String)

namespace Environment

def get? (environment : Environment) (name : String) : Option String :=
  (environment.find? (·.1 == name)).map (·.2)

/-- A variable that switches something on or off; without a text it leaves the default. -/
def flag (environment : Environment) (name : String) (default : Bool) : Bool :=
  let word := Text.lower (Text.trim ((environment.get? name).getD ""))
  if word.isEmpty then default else ["1", "true", "yes", "on"].contains word

end Environment

/-- The size of the window that pages are laid out in. -/
structure Viewport where
  width : Int := 1280
  height : Int := 720
  deriving DecidableEq, Repr

namespace Viewport

def check (value : Value) : Checked Viewport :=
  (fields "Viewport" .host value).andThen fun entries =>
    mk <$> field entries "width" int (.accepted 1280) <*> field entries "height" int (.accepted 720)

def record (viewport : Viewport) : Record :=
  [("width", .int viewport.width), ("height", .int viewport.height)]

end Viewport

/-- The place that pages are told. -/
structure Geolocation where
  latitude : Double
  longitude : Double
  accuracy : Option Double := none
  deriving DecidableEq, Repr

namespace Geolocation

def check (value : Value) : Checked Geolocation :=
  (fields "Geolocation" .host value).andThen fun entries =>
    mk <$> required entries "latitude" (floatBetween (-90) 90)
      <*> required entries "longitude" (floatBetween (-180) 180)
      <*> field entries "accuracy" (nullable float) (.accepted none)

private def ofFloat? : Option Double → Value
  | some x => .float x
  | none => .null

def record (place : Geolocation) : Record :=
  [("latitude", .float place.latitude), ("longitude", .float place.longitude),
    ("accuracy", ofFloat? place.accuracy)]

end Geolocation

structure ProxyConfig where
  server : String
  bypass : Option String := none
  username : Option String := none
  password : Option String := none
  deriving DecidableEq, Repr

namespace ProxyConfig

def check (value : Value) : Checked ProxyConfig :=
  (fields "ProxyConfig" .host value).andThen fun entries =>
    let server (value : Value) :=
      (text value).ensure (!Text.isAllBlank ·) (.rule "proxy server cannot be empty")
    mk <$> required entries "server" server
      <*> field entries "bypass" (nullable text) (.accepted none)
      <*> field entries "username" (nullable text) (.accepted none)
      <*> field entries "password" (nullable text) (.accepted none)

def record (proxy : ProxyConfig) : Record :=
  [("server", .text proxy.server), ("bypass", .ofText? proxy.bypass),
    ("username", .ofText? proxy.username), ("password", .ofText? proxy.password)]

end ProxyConfig

/-- The level of the logger tree, and the handler, by its number, that its records go to. -/
structure LoggingConfig where
  level : String := "INFO"
  sink : Option Nat := none
  deriving DecidableEq, Repr

namespace LoggingConfig

/-- Capital letters, as far as the names of levels need them: two letters outside ASCII have
capitals inside it. -/
private def upper (c : Char) : Char :=
  if c == 'ı' then 'I' else if c == 'ſ' then 'S' else c.toUpper

/-- The name of a level in capitals, if there is such a level. -/
def levelOf (value : String) : Checked String :=
  let level := value.map upper
  if (levelWeight? level).isSome then .accepted level
  else Checked.fail (.rule ("Unknown log level: " ++ value))

def check (environment : Environment) (value : Value) : Checked LoggingConfig :=
  (fields "LoggingConfig" .host value).andThen fun entries =>
    let level := (environment.get? "DOMHARVEST_LOG_LEVEL").getD "INFO"
    -- A handler is an object of the host, which no plain value is.
    let sink (_ : Value) : Checked Nat := Checked.fail .handlerType
    mk <$> field entries "level" (fun value => (text value).andThen levelOf)
        ((levelOf level).under (.name "level"))
      <*> field entries "sink" (nullable sink) (.accepted none)

def record (logging : LoggingConfig) : Record :=
  [("level", .text logging.level), ("sink", .ofInt? (logging.sink.map Int.ofNat))]

def weight (logging : LoggingConfig) : Nat := (levelWeight? logging.level).getD 0

end LoggingConfig

/-- Where sessions are kept, and which one to restore on start. -/
structure SessionConfig where
  storageDir : String := "sessions"
  sessionId : Option String := none
  deriving DecidableEq, Repr

namespace SessionConfig

def check (environment : Environment) (value : Value) : Checked SessionConfig :=
  (fields "SessionConfig" .host value).andThen fun entries =>
    let directory := (environment.get? "DOMHARVEST_SESSION_DIR").getD "./sessions"
    mk <$> field entries "storage_dir" path (.accepted (FilePath.normalize directory))
      <*> field entries "session_id" (nullable text) (.accepted none)

def record (session : SessionConfig) : Record :=
  [("storage_dir", .text session.storageDir), ("session_id", .ofText? session.sessionId)]

end SessionConfig

structure HarvesterConfig where
  headless : Bool := true
  timeoutMs : Nat := 30000
  viewport : Option Viewport := some {}
  userAgent : Option String := none
  locale : Option String := none
  timezoneId : Option String := none
  geolocation : Option Geolocation := none
  proxy : Option ProxyConfig := none
  extraHttpHeaders : List (String × String) := []
  cookies : List Record := []
  javaScriptEnabled : Bool := true
  rateLimit : Option RateLimit.RateLimitConfig := none
  retry : RetryPolicy := {}
  logging : LoggingConfig := {}
  session : SessionConfig := {}
  signalsLedger : Option String := none
  signalsHistory : Nat := 1000
  /-- Whether there is an error observer. -/
  onError : Bool := false

namespace HarvesterConfig

def positiveTimeout (n : Int) : Checked Nat :=
  if 1 ≤ n then .accepted n.toNat else Checked.fail (.rule "timeout_ms must be >= 1")

/-- The timeout that the environment gives. A text that is no number breaks the check off, with a
message that shows at most the beginning of the text. -/
def timeoutDefault (environment : Environment) : Checked Nat :=
  let text := (environment.get? "DOMHARVEST_TIMEOUT_MS").getD "30000"
  match Numeral.intOfAnyScript text with
  | .ok n => (positiveTimeout n).under (.name "timeout_ms")
  | .error .malformed =>
      let shown := String.ofList ((Text.quoted text).toList.take 200)
      .broken (.value ("invalid literal for int() with base 10: " ++ shown))
  | .error (.tooLong digits) => .broken (.tooManyDigits digits)

private def loggingDefault (environment : Environment) : Checked LoggingConfig :=
  match (LoggingConfig.check environment (.map [])).validated "LoggingConfig" with
  | .ok logging => .accepted logging
  | .error failure => .broken failure

/-- Whether a function is given; anything else but null is refused. -/
private def callable : Value → Checked Bool
  | .null => .accepted false
  | .function => .accepted true
  | _ => Checked.fail .callableType

def check (environment : Environment) (value : Value) : Checked HarvesterConfig :=
  (fields "HarvesterConfig" .host value).andThen fun entries =>
    mk <$> field entries "headless" bool
        (.accepted (environment.flag "DOMHARVEST_HEADLESS" true))
      <*> field entries "timeout_ms" (fun value => (int value).andThen positiveTimeout)
        (timeoutDefault environment)
      <*> field entries "viewport" (nullable Viewport.check) (.accepted (some {}))
      <*> field entries "user_agent" (nullable text) (.accepted none)
      <*> field entries "locale" (nullable text) (.accepted none)
      <*> field entries "timezone_id" (nullable text) (.accepted none)
      <*> field entries "geolocation" (nullable Geolocation.check) (.accepted none)
      <*> field entries "proxy" (nullable ProxyConfig.check) (.accepted none)
      <*> field entries "extra_http_headers" (mapping .host text) (.accepted [])
      <*> field entries "cookies" (list .host (Check.record .host)) (.accepted [])
      <*> field entries "java_script_enabled" bool (.accepted true)
      <*> field entries "rate_limit" (nullable RateLimit.RateLimitConfig.check) (.accepted none)
      <*> field entries "retry" RetryPolicy.check (.accepted {})
      <*> field entries "logging" (LoggingConfig.check environment) (loggingDefault environment)
      <*> field entries "session" (SessionConfig.check environment)
        (SessionConfig.check environment (.map []))
      <*> field entries "signals_ledger" (nullable path) (.accepted none)
      <*> field entries "signals_history" (natAtLeast 1) (.accepted 1000)
      <*> field entries "on_error" callable (.accepted false)

private def ofRecord? {α : Type} (toRecord : α → Record) : Option α → Value
  | some a => .record (toRecord a)
  | none => .null

def record (config : HarvesterConfig) : Record :=
  [("headless", .bool config.headless), ("timeout_ms", .ofNat config.timeoutMs),
    ("viewport", ofRecord? Viewport.record config.viewport),
    ("user_agent", .ofText? config.userAgent), ("locale", .ofText? config.locale),
    ("timezone_id", .ofText? config.timezoneId),
    ("geolocation", ofRecord? Geolocation.record config.geolocation),
    ("proxy", ofRecord? ProxyConfig.record config.proxy),
    ("extra_http_headers", .record (config.extraHttpHeaders.map fun (k, v) => (k, .text v))),
    ("cookies", .list (config.cookies.map .record)),
    ("java_script_enabled", .bool config.javaScriptEnabled),
    ("rate_limit", ofRecord? RateLimit.RateLimitConfig.record config.rateLimit),
    ("retry", .record config.retry.record), ("logging", .record config.logging.record),
    ("session", .record config.session.record), ("signals_ledger", .ofText? config.signalsLedger),
    ("signals_history", .ofNat config.signalsHistory),
    ("on_error", if config.onError then .function else .null)]

end HarvesterConfig

end WebHarvest
