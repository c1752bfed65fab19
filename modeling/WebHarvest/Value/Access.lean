import WebHarvest.Value.Basic

/-!
# Access to plain data

How the parts of plain data are read where a part that is missing, or that is of another type,
counts as absent.
-/

set_option autoImplicit false

namespace WebHarvest.Value

def slot? (object : Value) (name : String) : Option Value :=
  match object with
  | .map entries => lookup? name entries
  | _ => none

def slot (object : Value) (name : String) : Value := (object.slot? name).getD .null

def items : Value → List Value
  | .list items => items
  | _ => []

def entries : Value → Record
  | .map entries => entries.filterMap fun (key, value) => match key with
      | .text key => some (key, value)
      | _ => none
  | _ => []

def textOf (value : Value) : String := value.asText?.getD ""

def asInt? : Value → Option Int
  | .int n => some n
  | _ => none

def flag (object : Value) (name : String) (default : Bool) : Bool :=
  match object.slot name with
  | .bool b => b
  | _ => default

def number (object : Value) (name : String) (default : Int) : Int :=
  ((object.slot name).asInt?).getD default

def text? (object : Value) (name : String) : Option String := (object.slot name).asText?

def textAt (object : Value) (name : String) : String := (object.slot name).textOf

end WebHarvest.Value
