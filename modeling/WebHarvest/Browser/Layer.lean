import WebHarvest.Config.Harvester
import WebHarvest.Program.Basic

/-!
# The browser layer

The layer makes no decisions. It has one isolated browser context, opens a page of its own for every
operation, closes it afterwards, and turns the engine's errors into harvesting failures.
-/

set_option autoImplicit false

namespace WebHarvest.Browser

def logger : String := componentLogger "browser.layer"

/-- What the layer holds of the engine. -/
structure Held where
  engine : Option ResourceId := none
  browser : Option ResourceId := none
  context : Option ResourceId := none
  deriving DecidableEq, Repr

/-- A layer: its configuration and what it holds. -/
structure Layer where
  config : HarvesterConfig := {}
  held : Held := {}

/-- The entries that are not null. -/
private def withoutNulls (record : Record) : Record :=
  record.filter fun (_, value) => !(value matches .null)

/-- An entry for a text that is given and not empty. -/
private def textEntry (name : String) : Option String → Record
  | some s => if s.isEmpty then [] else [(name, .text s)]
  | none => []

def contextOptions (config : HarvesterConfig) (storageState : Option String) : Record :=
  [("java_script_enabled", .bool config.javaScriptEnabled)] ++
    (config.viewport.map fun viewport => ("viewport", Value.record viewport.record)).toList ++
    textEntry "user_agent" config.userAgent ++ textEntry "locale" config.locale ++
    textEntry "timezone_id" config.timezoneId ++
    (match config.geolocation with
      | some place =>
          [("geolocation", .record (withoutNulls place.record)),
            ("permissions", .list [.text "geolocation"])]
      | none => []) ++
    (if config.extraHttpHeaders.isEmpty then []
      else [("extra_http_headers",
        .record (config.extraHttpHeaders.map fun (name, value) => (name, .text value)))]) ++
    (storageState.map fun path => ("storage_state", Value.text path)).toList

def launchOptions (config : HarvesterConfig) : Record :=
  [("headless", .bool config.headless)] ++
    (config.proxy.map fun proxy => ("proxy", Value.record (withoutNulls proxy.record))).toList

namespace Layer

def started (layer : Layer) : Bool := layer.held.context.isSome

/-- The timeout of a call: what the caller gives, unless it is zero, or else the configured one. -/
def timeout (layer : Layer) : Option Int → Int
  | some ms => if ms == 0 then layer.config.timeoutMs else ms
  | none => layer.config.timeoutMs

def requireContext (layer : Layer) : Action Unit :=
  if layer.started then return
  else throw (.harvest .navigation "Browser not started" none (some "new_page") none none)

def openPage (layer : Layer) : Action PageId := do
  layer.requireContext
  return numberOf (← Action.browser .newPage)

/-- Runs a body on a page of its own and closes the page whatever happens. -/
def withPage {α : Type} (layer : Layer) (body : PageId → Action α) : Action α := do
  let page ← layer.openPage
  (body page).ensuring do
    let _ ← Action.browser (.closePage page)

def navigate (layer : Layer) (page : PageId) (url waitUntil : String) (timeoutMs : Option Int) :
    Action Unit := do
  Action.log <| .debug logger "Navigating" [("url", .text url), ("wait_until", .text waitUntil)]
  match ← (Action.browser (.goto page url (some waitUntil) (layer.timeout timeoutMs))).attempt with
  | .ok _ => return
  | .error failure =>
      if failure.isBrowser then
        throw <| .harvest .navigation ("Navigation to " ++ url ++ " failed: " ++ failure.message)
          (some url) (some "navigate") none (some failure)
      else throw failure

def waitForLoadState (layer : Layer) (page : PageId) (url state : String)
    (timeoutMs : Option Int) : Action Unit := do
  match ← (Action.browser (.waitForLoadState page state (layer.timeout timeoutMs))).attempt with
  | .ok _ => return
  | .error failure =>
      if failure.isBrowser then
        throw <| .harvest .matchTimeout
          ("Load state " ++ Text.quoted state ++ " not reached on " ++ url)
          (some url) (some "wait_for_load_state") none (some failure)
      else throw failure

/-- Waits until a selector reaches a state. -/
def waitForMatch (layer : Layer) (page : PageId) (url selector state : String)
    (timeoutMs : Option Int) : Action Unit := do
  let call := Call.waitForSelector page selector (some state) (layer.timeout timeoutMs)
  match ← (Action.browser call).attempt with
  | .ok _ => return
  | .error failure =>
      if failure.isBrowserTimeout then
        throw <| .harvest .matchTimeout
          ("Selector " ++ Text.quoted selector ++ " did not become " ++ state ++ " on " ++ url)
          (some url) (some "wait_for_selector") (some selector) (some failure)
      else if failure.isBrowser then
        throw <| .harvest .navigation
          ("Page unavailable while waiting for " ++ Text.quoted selector ++ ": " ++
            failure.message)
          (some url) (some "wait_for_selector") (some selector) (some failure)
      else throw failure

end Layer

/-- Runs a compiled schema on every match of a selector. -/
def extract (page : PageId) (url selector : String) (schema : CompiledSchema Value) :
    Action Value := do
  match ← (Action.browser (.extractAll page selector schema)).attempt with
  | .ok records => return records
  | .error failure =>
      if failure.isBrowser then
        throw <| .harvest .extraction ("Extraction failed on " ++ url ++ ": " ++ failure.message)
          (some url) (some "extract") (some selector) (some failure)
      else throw failure

def evaluate (page : PageId) (url source : String) (argument : Value := .null) : Action Value := do
  match ← (Action.browser (.evaluate page source argument)).attempt with
  | .ok result => return result
  | .error failure =>
      if failure.isBrowser then
        throw <| .harvest .extraction
          ("Page function failed on " ++ url ++ ": " ++ failure.message)
          (some url) (some "evaluate") none (some failure)
      else throw failure

def screenshotOptions (options : ScreenshotOptions) : Record :=
  [("full_page", .bool options.fullPage), ("type", .text options.type)] ++
    (options.path.map fun path => ("path", Value.text path)).toList ++
    (if options.type == "jpeg" then
      (options.quality.map fun quality => ("quality", Value.ofNat quality)).toList
    else [])

def captureImage (page : PageId) (url : String) (options : ScreenshotOptions) :
    Action Value := do
  if let some path := options.path then Action.makeParents path
  match ← (Action.browser (.screenshot page (screenshotOptions options))).attempt with
  | .ok image => return image
  | .error failure =>
      if failure.isBrowser then
        throw <| .harvest .extraction ("Screenshot failed on " ++ url ++ ": " ++ failure.message)
          (some url) (some "screenshot") none (some failure)
      else throw failure

/-- The cookies of the context, or only those of some URLs. -/
def Layer.cookies (layer : Layer) (urls : Value) : Action Value := do
  layer.requireContext
  Action.browser (.cookies (if urls.isEmpty then none else some urls))

end WebHarvest.Browser
