import WebHarvest.Number.Double
import WebHarvest.Options
import WebHarvest.Schema.Node

/-!
# Host values

Everything a host can pass to the library: plain data, the building blocks of schemas, and objects
the library can only recognise. Configuration input, schemas, contexts and results are all values.
-/

set_option autoImplicit false

namespace WebHarvest

/-- A host value. The slots of a descriptor are values too, since nothing checks them before the
schema is compiled. -/
inductive Value where
  | null
  | bool (b : Bool)
  | int (n : Int)
  | float (x : Double)
  | text (s : String)
  | bytes (data : List UInt8)
  | list (items : List Value)
  /-- A sequence that is not a list. -/
  | tuple (items : List Value)
  /-- A mapping, its entries in insertion order. -/
  | map (entries : List (Value × Value))
  | function
  /-- An object of a class the library knows nothing about. -/
  | stranger
  /-- A member of the enumeration of field kinds, which equals the text of its name. -/
  | fieldKind (kind : FieldKind)
  /-- A declarative field. -/
  | descriptor (kind selector attrName trim default item : Value)
  | script (source : Value)
  /-- A schema that is already compiled. -/
  | compiled (root : Node Value) (callbacks : List (String × String))
  | options (options : HarvestOptions)
  /-- A job of a batch. -/
  | job (url selector : String) (extractor : Value) (options : HarvestOptions)
  deriving Inhabited, Repr

abbrev Record := List (String × Value)

namespace Value

def record (entries : Record) : Value := .map (entries.map fun (key, value) => (.text key, value))

def ofText? : Option String → Value
  | some s => .text s
  | none => .null

def asText? : Value → Option String
  | .text s => some s
  | .fieldKind kind => some kind.name
  | _ => none

def ofNat (n : Nat) : Value := .int n

def ofInt? : Option Int → Value
  | some n => .int n
  | none => .null

def lookup? (key : String) : List (Value × Value) → Option Value
  | [] => none
  | (.text k, value) :: rest => if k == key then some value else lookup? key rest
  | _ :: rest => lookup? key rest

/-- What counts as nothing in a condition: null, false, zero, and whatever is empty. -/
def isEmpty : Value → Bool
  | .null => true
  | .bool b => !b
  | .int n => n == 0
  | .float x => x.isZero
  | .text s => s.isEmpty
  | .bytes data => data.isEmpty
  | .list items => items.isEmpty
  | .tuple items => items.isEmpty
  | .map entries => entries.isEmpty
  | _ => false

def typeName : Value → String
  | .null => "NoneType"
  | .bool _ => "bool"
  | .int _ => "int"
  | .float _ => "float"
  | .text _ => "str"
  | .bytes _ => "bytes"
  | .list _ => "list"
  | .tuple _ => "tuple"
  | .map _ => "dict"
  | .function => "PyCallable"
  | .stranger => "Opaque"
  | .fieldKind _ => "FieldKind"
  | .descriptor .. => "FieldDescriptor"
  | .script _ => "Callback"
  | .compiled .. => "CompiledSchema"
  | .options _ => "HarvestOptions"
  | .job .. => "BatchJob"

def insertEntry (key : String) (value : Value) : Record → Record
  | [] => [(key, value)]
  | (k, v) :: rest => if k == key then (k, value) :: rest else (k, v) :: insertEntry key value rest

end Value

end WebHarvest
