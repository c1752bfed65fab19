import WebHarvest.Browser.Layer
import WebHarvest.Retry

/-!
# Attempts

One attempt at a target: a page is opened, the target is visited, what the caller waits for is
waited for, and the page yields its records, the result of a function, or a picture.
-/

set_option autoImplicit false

namespace WebHarvest.Harvester

open Browser (Layer PageId)

def logger : String := componentLogger "harvester.engine"

def lengthOf (value : Value) : Except Failure Nat :=
  match value with
  | .list items => .ok items.length
  | .tuple items => .ok items.length
  | .map entries => .ok entries.length
  | .text s => .ok s.length
  | .bytes data => .ok data.length
  | value => .error (.type ("object of type '" ++ value.typeName ++ "' has no len()"))

/-- A timeout that is given and not zero, or else the general one of the options. -/
def waitTimeout (options : HarvestOptions) : Option Int :=
  match options.waitForSelector.timeoutMs with
  | some ms => if ms == 0 then options.timeoutMs.map Int.ofNat else some ms
  | none => options.timeoutMs.map Int.ofNat

def visit (layer : Layer) (page : PageId) (url : String) (options : HarvestOptions) :
    Action Unit := do
  let timeout := options.timeoutMs.map Int.ofNat
  layer.navigate page url options.waitUntil timeout
  match options.waitForLoadState with
  | some state => if !state.isEmpty then layer.waitForLoadState page url state timeout
  | none => pure ()

def extractOnce (layer : Layer) (url selector : String) (schema : CompiledSchema Value)
    (options : HarvestOptions) : Action Value := do
  let started ← Action.now
  let records ← layer.withPage fun page => do
    visit layer page url options
    layer.waitForMatch page url selector options.waitForSelector.state (waitTimeout options)
    let records ← Browser.extract page url selector schema
    if let some shot := options.screenshot then
      let _ ← Browser.captureImage page url shot
    return records
  let duration ← Action.elapsed started
  let count ← Action.settle (lengthOf records)
  Action.log <| .info logger ("Extracted " ++ toString count ++ " records from " ++ url)
    [("url", .text url), ("selector", .text selector), ("duration_ms", .int duration)]
  Action.emit .extractionComplete
    [(.text "url", .text url), (.text "selector", .text selector),
      (.text "records", .ofNat count), (.text "mode", .text schema.mode.name),
      (.text "duration_ms", .int duration)]
  return records

def evaluateOnce (layer : Layer) (url source : String) (options : HarvestOptions) : Action Value :=
  layer.withPage fun page => do
    visit layer page url options
    Browser.evaluate page url source

def captureOnce (layer : Layer) (url : String) (shot : ScreenshotOptions)
    (options : HarvestOptions) : Action Value :=
  layer.withPage fun page => do
    visit layer page url options
    Browser.captureImage page url shot

end WebHarvest.Harvester
