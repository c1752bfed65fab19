import WebHarvest.Interchange.Value
import WebHarvest.Page.Datum
import WebHarvest.Page.Element

/-!
# Interchange of pages

An element is a mapping with its text, its markup, its attributes and, for each selector, its
matches. Page data is written like other values, except that a record is a list of pairs under a
mark of its own, since the order of its keys counts.
-/

set_option autoImplicit false

namespace WebHarvest.Interchange

mutual

def readElement : Value → Element
  | .map entries =>
      let spec : Value := .map entries
      .node (spec.text? "text") (spec.text? "html")
        ((spec.slot "attrs").entries.map fun (name, value) => (name, value.textOf))
        (readMatches entries)
  | _ => .node none none [] []

/-- The matches of an element, which stand in its first entry named `matches`. -/
def readMatches : List (Value × Value) → List (String × List Element)
  | [] => []
  | (.text "matches", .map found) :: _ => readFound found
  | _ :: rest => readMatches rest

def readFound : List (Value × Value) → List (String × List Element)
  | [] => []
  | (.text selector, .list items) :: rest => (selector, readElements items) :: readFound rest
  | _ :: rest => readFound rest

def readElements : List Value → List Element
  | [] => []
  | item :: rest => readElement item :: readElements rest

end

mutual

/-- The plain data that stands for page data. A number without a fraction is a whole number, as far
as the page writes it without an exponent. -/
def writeDatum : Datum → Value
  | .undefined => .record [("$undefined", .bool true)]
  | .null => .null
  | .bool b => .bool b
  | .number x =>
      match (Datum.number x).asText.toInt? with
      | some n => .int n
      | none => writeValue (.float x)
  | .text s => .text s
  | .list items => .list (writeData items)
  | .record fields => .record [("$obj", .list (writeFields fields))]

def writeData : List Datum → List Value
  | [] => []
  | item :: rest => writeDatum item :: writeData rest

def writeFields : List (String × Datum) → List Value
  | [] => []
  | (key, datum) :: rest => .list [.text key, writeDatum datum] :: writeFields rest

end

end WebHarvest.Interchange
