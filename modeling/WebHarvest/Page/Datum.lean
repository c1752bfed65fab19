import WebHarvest.Number.Shortest
import WebHarvest.Value.Basic

/-!
# Data inside a page

Page data is what a compiled schema becomes when it is sent to a page, and what the page sends back.
All numbers are floating-point there, and a record lists its keys in an order of its own: keys that
are array indices come first, ascending, and the others follow in the order of their definition.
-/

set_option autoImplicit false

namespace WebHarvest

/-- A value inside a page. -/
inductive Datum where
  | undefined
  | null
  | bool (b : Bool)
  | number (x : Double)
  | text (s : String)
  | list (items : List Datum)
  | record (fields : List (String × Datum))
  deriving Inhabited, Repr

namespace Datum

/-- The number that a key denotes when it is an array index: decimal digits without a leading zero,
below 2^32 - 1. -/
def arrayIndex? (key : String) : Option Nat :=
  let cs := key.toList
  if cs.isEmpty || !cs.all Char.isDigit || (cs.head? == some '0' && cs.length != 1) then none
  else
    let n := cs.foldl (fun n c => 10 * n + (c.toNat - 48)) 0
    if n < 4294967295 then some n else none

/-- Puts a new index key before the first key that has to stand behind it. -/
def insertIndex (index : Nat) (key : String) (datum : Datum) :
    List (String × Datum) → List (String × Datum)
  | [] => [(key, datum)]
  | (k, d) :: rest =>
      match arrayIndex? k with
      | some i =>
          if i < index then (k, d) :: insertIndex index key datum rest
          else (key, datum) :: (k, d) :: rest
      | none => (key, datum) :: (k, d) :: rest

def define (key : String) (datum : Datum) (fields : List (String × Datum)) :
    List (String × Datum) :=
  if fields.any (·.1 == key) then
    fields.map fun (k, d) => if k == key then (k, datum) else (k, d)
  else
    match arrayIndex? key with
    | some index => insertIndex index key datum fields
    | none => fields ++ [(key, datum)]

/-- The record that results from defining fields one after another. -/
def ofFields (fields : List (String × Datum)) : Datum :=
  .record (fields.foldl (fun record (key, datum) => define key datum record) [])

mutual

/-- What arrives in the page when a value is sent. Values that cannot be sent arrive as null. -/
def ofValue : Value → Datum
  | .bool b => .bool b
  | .int n => .number (Double.ofInt n)
  | .float x => .number x
  | .text s => .text s
  | .fieldKind kind => .text kind.name
  | .list items => .list (ofItems items)
  | .tuple items => .list (ofItems items)
  | .map entries => ofFields (ofEntries entries)
  | _ => .null

def ofItems : List Value → List Datum
  | [] => []
  | item :: rest => ofValue item :: ofItems rest

/-- Only text keys can be sent. -/
def ofEntries : List (Value × Value) → List (String × Datum)
  | [] => []
  | (.text key, value) :: rest => (key, ofValue value) :: ofEntries rest
  | _ :: rest => ofEntries rest

end

/-- What a condition in the page takes for false: nothing, false, zero, "not a number" and the empty
text. -/
def isFalsy : Datum → Bool
  | .undefined => true
  | .null => true
  | .bool b => !b
  | .number x => x.isZero || x.isNaN
  | .text s => s.isEmpty
  | _ => false

mutual

def asText : Datum → String
  | .undefined => "undefined"
  | .null => "null"
  | .bool b => if b then "true" else "false"
  | .number x => if x.isZero then "0" else Double.pageLayout.render x
  | .text s => s
  | .list items => ",".intercalate (itemTexts items)
  | .record _ => "[object Object]"

/-- The texts of the items of a list, where nothing becomes the empty text. -/
def itemTexts : List Datum → List String
  | [] => []
  | .undefined :: rest => "" :: itemTexts rest
  | .null :: rest => "" :: itemTexts rest
  | item :: rest => asText item :: itemTexts rest

end

end Datum

end WebHarvest
