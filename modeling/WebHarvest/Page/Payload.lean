import WebHarvest.Page.Interpret

/-!
# Reading payloads

A page gets its node tree as plain data, which nothing has checked. What is missing in a node is
undefined there. Where the data stands for no node that can be run, a defective node takes its
place, so that the fault shows when that node is reached, and not before.
-/

set_option autoImplicit false

namespace WebHarvest.Page

/-- One piece of a payload, in every way it can be read. -/
structure Reading where
  data : Datum
  node : Node Datum := .defective (.unknownKind .undefined)
  /-- The piece as the fields of a record, if it is a sequence. -/
  fields : Option (List (String × Node Datum)) := none
  field : String × Node Datum := ("", .defective .noField)

/-- The reading of what is not there: null or undefined. -/
def nothing (data : Datum) : Reading := { data, node := .defective (.absent data) }

def slot (slots : List (String × Reading)) (name : String) : Reading :=
  ((slots.find? (·.1 == name)).map (·.2)).getD (nothing .undefined)

def nodeOf (slots : List (String × Reading)) : Node Datum :=
  let data (name : String) : Datum := (slot slots name).data
  match data "kind" with
  | .text "text" => .text (data "selector") (data "trim") (data "default")
  | .text "attr" => .attr (data "selector") (data "attribute") (data "default")
  | .text "html" => .html (data "selector") (data "default")
  | .text "exists" => .presence (data "selector")
  | .text "count" => .count (data "selector")
  | .text "array" => .array (data "selector") (slot slots "item").node
  | .text "object" =>
      match (slot slots "fields").fields with
      | some fields => .object fields
      | none => .defective .noFields
  | .text "callback" => .callback (data "ref").asText
  | .text "value" => .value (data "value")
  | kind => .defective (.unknownKind kind)

/-- The reading of a sequence: its first item is the key of a field, its second the node. -/
def sequence (data : Datum) (items : List Reading) : Reading :=
  let item (index : Nat) : Reading := items[index]?.getD (nothing .undefined)
  { data
    fields := some (items.map (·.field))
    field := ((item 0).data.asText, (item 1).node) }

def character (c : Char) : Reading :=
  sequence (.text c.toString) [{ data := .text c.toString }]

mutual

def read : Value → Reading
  | .map entries =>
      let slots := readEntries entries
      { data := .ofFields (slots.map fun (key, reading) => (key, reading.data))
        node := nodeOf slots }
  | .list items =>
      let readings := readItems items
      sequence (.list (readings.map (·.data))) readings
  | .tuple items =>
      let readings := readItems items
      sequence (.list (readings.map (·.data))) readings
  | .text s => sequence (.text s) (s.toList.map character)
  | value =>
      match Datum.ofValue value with
      | .null => nothing .null
      | data => { data }

def readItems : List Value → List Reading
  | [] => []
  | item :: rest => read item :: readItems rest

def readEntries : List (Value × Value) → List (String × Reading)
  | [] => []
  | (.text key, value) :: rest => (key, read value) :: readEntries rest
  | _ :: rest => readEntries rest

end

def payloadSlots : Value → List (String × Reading)
  | .map entries => readEntries entries
  | _ => []

/-- Runs a payload on every element, in order. Its table of functions, which is not called here, has
to be there. -/
def interpretPayload (payload : Value) (elements : List Element) : Except Fault (List Datum) :=
  match payload, (slot (payloadSlots payload) "callbacks").data with
  | .null, _ => .error .noPayload
  | _, .undefined => .error .noCallbacks
  | _, .null => .error .noCallbacks
  | _, _ => interpret (slot (payloadSlots payload) "root").node elements

end WebHarvest.Page
