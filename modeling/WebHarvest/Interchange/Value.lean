import WebHarvest.Batch
import WebHarvest.Json.Reader
import WebHarvest.Schema.Compile
import WebHarvest.Schema.Payload
import WebHarvest.Value.Access
import WebHarvest.Value.Equality

/-!
# Interchange of values

Plain data has no form of its own for special numbers, bytes, sequences that are not lists, mappings
with other keys than texts, and the building blocks of schemas. In interchange they are written as a
mapping with one entry: its key is a mark, which begins with a dollar sign, and its value is what
the mark applies to. Reading goes from the inside out, so that marks can be nested.

Results are written in the same way, except that sequences become lists and objects become mappings
of their fields.
-/

set_option autoImplicit false

namespace WebHarvest.Interchange

def readHex : List Char → List UInt8
  | high :: low :: rest =>
      .ofNat (16 * (Json.hexValue? high).getD 0 + (Json.hexValue? low).getD 0) :: readHex rest
  | _ => []

def writeHex (data : List UInt8) : String :=
  String.ofList (data.flatMap fun byte => Text.hexPadded 2 byte.toNat)

private def pairOf : Value → Value × Value
  | .list [key, value] => (key, value)
  | _ => (.null, .null)

/-- Applies a mark to what it stands for; an unknown mark is an ordinary key. -/
def applyMark (mark : String) (content : Value) : Except Failure Value := do
  let given (name : String) (default : Value) : Value := (content.slot? name).getD default
  match mark with
  | "$float" => return .float ((Numeral.lenientDouble? content.textOf).getD Double.notANumber)
  | "$bytes" => return .bytes (readHex content.textOf.toList)
  | "$tuple" => return .tuple content.items
  | "$map" => return .ofPairs (content.items.map pairOf)
  | "$callable" => return .function
  | "$opaque" => return .stranger
  | "$text" =>
      return Schema.text (given "selector" .null) (given "trim" (.bool true))
        (given "default" .null)
  | "$attr" =>
      return Schema.attr (given "selector" .null) (given "name" .null) (given "default" .null)
  | "$html" => return Schema.html (given "selector" .null) (given "default" .null)
  | "$exists" => return Schema.presence (given "selector" .null)
  | "$count" => return Schema.count (given "selector" .null)
  | "$array" => return Schema.array (given "selector" .null) (given "item" .null)
  | "$field" =>
      return .descriptor (given "kind" .null) (given "selector" .null) (given "attribute" .null)
        (given "trim" (.bool true)) (given "default" .null) (given "item" .null)
  | "$js" => return .script content
  | "$compiled" =>
      let schema ← Failure.ofSchema (Schema.compileSchema content)
      return .compiled schema.root schema.callbacks
  | "$job" => return (← (BatchJob.check content).validated "BatchJob").toValue
  | "$options" => return .options (← (HarvestOptions.check content).validated "HarvestOptions")
  | _ => return .map [(.text mark, content)]

mutual

def readValue : Value → Except Failure Value
  | .list items => return .list (← readItems items)
  | .map entries => do
      match ← readEntries entries with
      | [(.text mark, content)] => applyMark mark content
      | entries => return .map entries
  | plain => .ok plain

def readItems : List Value → Except Failure (List Value)
  | [] => .ok []
  | item :: rest => return (← readValue item) :: (← readItems rest)

def readEntries : List (Value × Value) → Except Failure (List (Value × Value))
  | [] => .ok []
  | (key, value) :: rest => return (key, ← readValue value) :: (← readEntries rest)

end

/-- The key of a mapping as a text; keys that are no texts are displayed. -/
private def writeKey : Value → Value
  | .text key => .text key
  | key => .text key.display

mutual

def writeValue : Value → Value
  | .float x => .record [("$float", .text (Double.displayLayout.render x))]
  | .bytes data => .record [("$bytes", .text (writeHex data))]
  | .list items => .list (writeItems items)
  | .tuple items => .list (writeItems items)
  | .map entries => .map (writeEntries entries)
  | .function => .record [("$callable", .bool true)]
  | .stranger => .text "<opaque>"
  | .fieldKind kind => .text kind.name
  | .descriptor kind selector attrName trim default item =>
      .record [("kind", writeValue kind), ("selector", writeValue selector),
        ("attribute", writeValue attrName), ("trim", writeValue trim),
        ("default", writeValue default), ("item", writeValue item)]
  | .script source => .record [("source", writeValue source)]
  | .compiled root callbacks => .record (CompiledSchema.payload ⟨root, callbacks⟩)
  | .options options => .record options.record
  | .job url selector extractor options =>
      .record (BatchJob.mk url selector (writeValue extractor) options).record
  | plain => plain

def writeItems : List Value → List Value
  | [] => []
  | item :: rest => writeValue item :: writeItems rest

def writeEntries : List (Value × Value) → List (Value × Value)
  | [] => []
  | (key, value) :: rest => (writeKey key, writeValue value) :: writeEntries rest

end

def writeRecord (record : Record) : Value := writeValue (.record record)

end WebHarvest.Interchange
