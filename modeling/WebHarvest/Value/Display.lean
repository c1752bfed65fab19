import WebHarvest.Number.Shortest
import WebHarvest.Text.Quoted
import WebHarvest.Value.Basic

/-!
# Values in messages

How a message shows a value: texts in quotes, numbers in their shortest form, containers in their
brackets, and objects by the name of their class with their fields.
-/

set_option autoImplicit false

namespace WebHarvest

private def commaSeparated (items : List String) : String := ", ".intercalate items

private def displayFlag (b : Bool) : String := if b then "True" else "False"

/-- How something that may be absent is shown. -/
private def displayOptional {α : Type} (shown : α → String) : Option α → String
  | some a => shown a
  | none => "None"

private def displaySpaced (fields : List (String × String)) : String :=
  " ".intercalate (fields.map fun (field, shown) => field ++ "=" ++ shown)

private def displayObject (name : String) (fields : List (String × String)) : String :=
  name ++ "(" ++ commaSeparated (fields.map fun (field, shown) => field ++ "=" ++ shown) ++ ")"

def WaitForSelector.display (wait : WaitForSelector) : String :=
  displayObject "WaitForSelector"
    [("state", Text.quoted wait.state), ("timeout_ms", displayOptional toString wait.timeoutMs)]

def ScreenshotOptions.display (shot : ScreenshotOptions) : String :=
  displayObject "ScreenshotOptions"
    [("path", displayOptional (fun path => "PosixPath(" ++ Text.quoted path ++ ")") shot.path),
      ("full_page", displayFlag shot.fullPage), ("type", Text.quoted shot.type),
      ("quality", displayOptional toString shot.quality)]

private def displayBackoff (strategy : BackoffStrategy) : String :=
  let label := match strategy with
    | .exponential => "EXPONENTIAL"
    | .linear => "LINEAR"
  "<BackoffStrategy." ++ label ++ ": " ++ Text.quoted strategy.name ++ ">"

def HarvestOptions.shownFields (options : HarvestOptions) : List (String × String) :=
  [("retries", displayOptional toString options.retries),
      ("backoff", displayOptional displayBackoff options.backoff),
      ("base_delay_ms", displayOptional toString options.baseDelayMs),
      ("max_backoff_ms", displayOptional toString options.maxBackoffMs),
      ("retry_on", displayOptional
        (fun kinds => "[" ++ commaSeparated (kinds.map Text.quoted) ++ "]") options.retryOn),
      ("timeout_ms", displayOptional toString options.timeoutMs),
      ("wait_until", Text.quoted options.waitUntil),
      ("wait_for_load_state", displayOptional Text.quoted options.waitForLoadState),
      ("wait_for_selector", options.waitForSelector.display),
      ("screenshot", displayOptional ScreenshotOptions.display options.screenshot)]

def HarvestOptions.display (options : HarvestOptions) : String :=
  displayObject "HarvestOptions" options.shownFields

namespace Value

private def displayKind : FieldKind → String
  | .text => "<FieldKind.TEXT: 'text'>"
  | .attr => "<FieldKind.ATTR: 'attr'>"
  | .html => "<FieldKind.HTML: 'html'>"
  | .presence => "<FieldKind.EXISTS: 'exists'>"
  | .count => "<FieldKind.COUNT: 'count'>"
  | .array => "<FieldKind.ARRAY: 'array'>"

private def displayRecord (fields : List (String × String)) : String :=
  "\x7b" ++ commaSeparated (fields.map fun (key, shown) => Text.quoted key ++ ": " ++ shown) ++
    "\x7d"

mutual

def display : Value → String
  | .null => "None"
  | .bool b => displayFlag b
  | .int n => toString n
  | .float x => Double.displayLayout.render x
  | .text s => Text.quoted s
  | .bytes data => Text.quotedBytes data
  | .list items => "[" ++ commaSeparated (displayItems items) ++ "]"
  | .tuple [item] => "(" ++ display item ++ ",)"
  | .tuple items => "(" ++ commaSeparated (displayItems items) ++ ")"
  | .map entries => "\x7b" ++ commaSeparated (displayEntries entries) ++ "\x7d"
  | .function => "<callable>"
  | .stranger => "<opaque>"
  | .fieldKind kind => displayKind kind
  | .descriptor kind selector attrName trim default item =>
      displayObject "FieldDescriptor"
        [("kind", display kind), ("selector", display selector),
          ("attribute", display attrName), ("trim", display trim), ("default", display default),
          ("item", display item)]
  | .script source => displayObject "Callback" [("source", display source)]
  | .compiled root callbacks =>
      displayObject "CompiledSchema"
        [("root", displayNode root),
          ("callbacks",
            displayRecord (callbacks.map fun (ref, source) => (ref, Text.quoted source)))]
  | .options o => o.display
  | .job url selector extractor o =>
      displayObject "BatchJob"
        [("url", Text.quoted url), ("selector", Text.quoted selector),
          ("extractor", display extractor), ("options", o.display)]

def displayItems : List Value → List String
  | [] => []
  | item :: rest => display item :: displayItems rest

def displayEntries : List (Value × Value) → List String
  | [] => []
  | (key, value) :: rest => (display key ++ ": " ++ display value) :: displayEntries rest

def displayNode : Node Value → String
  | .text selector trim default =>
      displayRecord [("kind", Text.quoted "text"), ("selector", display selector),
        ("trim", display trim), ("default", display default)]
  | .attr selector attrName default =>
      displayRecord [("kind", Text.quoted "attr"), ("selector", display selector),
        ("attribute", display attrName), ("default", display default)]
  | .html selector default =>
      displayRecord [("kind", Text.quoted "html"), ("selector", display selector),
        ("default", display default)]
  | .presence selector =>
      displayRecord [("kind", Text.quoted "exists"), ("selector", display selector)]
  | .count selector =>
      displayRecord [("kind", Text.quoted "count"), ("selector", display selector)]
  | .array selector item =>
      displayRecord [("kind", Text.quoted "array"), ("selector", display selector),
        ("item", displayNode item)]
  | .object fields =>
      displayRecord [("kind", Text.quoted "object"),
        ("fields", "[" ++ commaSeparated (displayFields fields) ++ "]")]
  | .callback ref => displayRecord [("kind", Text.quoted "callback"), ("ref", Text.quoted ref)]
  | .value data => displayRecord [("kind", Text.quoted "value"), ("value", display data)]
  | .defective (.unknownKind kind) => displayRecord [("kind", display kind)]
  | .defective _ => "None"

def displayFields : List (String × Node Value) → List String
  | [] => []
  | (key, node) :: rest =>
      ("[" ++ Text.quoted key ++ ", " ++ displayNode node ++ "]") :: displayFields rest

end

/-- How a message shows what it is about: a text as it is, options and jobs by their fields alone,
anything else like a value. -/
def shown : Value → String
  | .text s => s
  | .options o => displaySpaced o.shownFields
  | .job url selector extractor o =>
      displaySpaced [("url", Text.quoted url), ("selector", Text.quoted selector),
        ("extractor", extractor.display), ("options", o.display)]
  | value => value.display

end Value

end WebHarvest
