import WebHarvest.Page.Datum
import WebHarvest.Page.Element
import WebHarvest.Schema.Node
import WebHarvest.Text.Blank

/-!
# Running a compiled schema in a page

The node tree is walked once for each matched element and gives one result for it. Look-ups start
from the current element, never from the whole document, so nested fields are scoped.
-/

set_option autoImplicit false

namespace WebHarvest.Page

/-- What can go wrong while a tree runs. -/
inductive Fault where
  /-- A node is reached that cannot be run. -/
  | defective (defect : Defect Datum)
  | noProcedure (ref : String)
  /-- There is no payload at all. -/
  | noPayload
  /-- The payload has no table of functions. -/
  | noCallbacks
  deriving Repr

/-- Whether a fault is the program's own; the others arise where it meets data of the wrong type. -/
def Fault.isOwn : Fault → Bool
  | .defective (.unknownKind _) => true
  | _ => false

def Fault.kind (fault : Fault) : String := if fault.isOwn then "Error" else "TypeError"

def Fault.message : Fault → String
  | .defective (.unknownKind kind) => "Unknown node kind: " ++ kind.asText
  | .defective (.absent nothing) =>
      "Cannot read properties of " ++ nothing.asText ++ " (reading 'kind')"
  | .defective .noFields => "node.fields is not iterable"
  | .defective .noField => ".for is not iterable"
  | .noProcedure _ => "procedures[node.ref] is not a function"
  | .noPayload => "Cannot read properties of null (reading 'callbacks')"
  | .noCallbacks => "Cannot convert undefined or null to object"

/-- The first match of a selector, or the element itself when there is none to look for. -/
def resolve (element : Element) (selector : Datum) : Option Element :=
  if selector.isFalsy then some element else (element.select selector.asText).head?

/-- A text found in the page, or the default when nothing was found. -/
def textOr (default : Datum) : Option String → Datum
  | some s => .text s
  | none => default

mutual

def run : Node Datum → Element → Except Fault Datum
  | .text selector trim default, element =>
      .ok <| textOr default <| (resolve element selector).bind fun target =>
        target.text?.map fun s => if trim.isFalsy then s else Text.trimPage s
  | .attr selector attrName default, element =>
      .ok <| textOr default <| (resolve element selector).bind (·.attribute? attrName.asText)
  | .html selector default, element =>
      .ok <| textOr default <| (resolve element selector).bind (·.html?)
  | .presence selector, element => .ok (.bool (resolve element selector).isSome)
  | .count selector, element =>
      .ok (.number (.ofInt (element.select selector.asText).length))
  | .array selector item, element =>
      return .list (← (element.select selector.asText).mapM fun found => run item found)
  | .object fields, element => return .ofFields (← runFields fields element)
  | .callback ref, _ => .error (.noProcedure ref)
  | .value data, _ => .ok data
  | .defective defect, _ => .error (.defective defect)

def runFields : List (String × Node Datum) → Element → Except Fault (List (String × Datum))
  | [], _ => .ok []
  | (key, node) :: rest, element => return (key, ← run node element) :: (← runFields rest element)

end

def interpret (root : Node Datum) (elements : List Element) : Except Fault (List Datum) :=
  elements.mapM (run root)

/-- Runs a compiled schema: its tree is sent to the page, then run. -/
def extract (schema : CompiledSchema Value) (elements : List Element) :
    Except Fault (List Datum) :=
  interpret (schema.root.map .ofValue) elements

end WebHarvest.Page
