import WebHarvest.Page.Datum
import WebHarvest.Page.Element
import WebHarvest.Schema.Compile
import WebHarvest.Value.Access

/-!
# The meaning of a schema

What a schema says about an element, read off the schema itself: no node tree is built and no page
runs. Results are compared by their contents, where a record is a mapping from keys, so that the
order in which a page lists its keys does not matter.
-/

set_option autoImplicit false

namespace WebHarvest

/-- What page data says. A record is a mapping from keys to contents. -/
inductive Content where
  | undefined
  | null
  | bool (b : Bool)
  | number (x : Double)
  | text (s : String)
  | list (items : List Content)
  | record (field : String → Option Content)

namespace Datum

mutual

def content : Datum → Content
  | .undefined => .undefined
  | .null => .null
  | .bool b => .bool b
  | .number x => .number x
  | .text s => .text s
  | .list items => .list (contents items)
  | .record fields => .record (fieldContents fields)

def contents : List Datum → List Content
  | [] => []
  | item :: rest => content item :: contents rest

/-- The content under each key. A later field replaces an earlier one of the same key. -/
def fieldContents : List (String × Datum) → String → Option Content
  | [], _ => none
  | (key, datum) :: rest, name =>
      (fieldContents rest name).or (if name = key then some (content datum) else none)

end

end Datum

namespace Schema

def isTextOrNull (value : Value) : Bool := value.asText?.isSome || value matches .null

mutual

/-- Schemas without functions: mappings and descriptors, nested in any way, and data. Selectors are
texts or null, and trimming is switched on or off; an attribute's name is a text or null. -/
def isDeclarative : Value → Bool
  | .descriptor kind selector attrName trim _ item =>
      isTextOrNull selector && (trim matches .bool _) &&
        match kindOf? kind with
        | some .attr => isTextOrNull attrName
        | some .array => isDeclarative item
        | _ => true
  | .map entries => areDeclarative entries
  | .script _ => false
  | .compiled .. => false
  | _ => true

def areDeclarative : List (Value × Value) → Bool
  | [] => true
  | (_, value) :: rest => isDeclarative value && areDeclarative rest

end

mutual

/-- The content of data that is copied to every record. -/
def dataContent : Value → Content
  | .bool b => .bool b
  | .int n => .number (Double.ofInt n)
  | .float x => .number x
  | .text s => .text s
  | .fieldKind kind => .text kind.name
  | .list items => .list (dataContents items)
  | .tuple items => .list (dataContents items)
  | .map entries => .record (entryContents entries)
  | _ => .null

def dataContents : List Value → List Content
  | [] => []
  | item :: rest => dataContent item :: dataContents rest

def entryContents : List (Value × Value) → String → Option Content
  | [], _ => none
  | (.text key, value) :: rest, name =>
      (entryContents rest name).or (if name = key then some (dataContent value) else none)
  | _ :: rest, name => entryContents rest name

end

/-- Where a field looks: at the first match of its selector, or at the current element when the
selector is null or empty. -/
def target (selector : Value) (element : Element) : Option Element :=
  if selector.textOf = "" then some element else (element.select selector.textOf).head?

/-- A text found in the page, without the blanks at its ends when trimming is switched on. -/
def trimmed (trim : Value) (found : Option String) : Option String :=
  if trim matches .bool true then found.map Text.trimPage else found

/-- A text found in the page, or else the default. -/
def foundOr (default : Value) : Option String → Content
  | some s => .text s
  | none => dataContent default

mutual

/-- What a schema says about an element. -/
def meaning : Value → Element → Content
  | .descriptor kind selector attrName trim default item, element =>
      match kindOf? kind with
      | some .text =>
          foundOr default (trimmed trim ((target selector element).bind Element.text?))
      | some .attr =>
          foundOr default ((target selector element).bind (·.attribute? attrName.textOf))
      | some .html => foundOr default ((target selector element).bind Element.html?)
      | some .presence => .bool (target selector element).isSome
      | some .count => .number (.ofInt (element.select selector.textOf).length)
      | some .array => .list ((element.select selector.textOf).map fun found => meaning item found)
      | none => .undefined
  | .map entries, element => .record (fieldMeanings entries element)
  | data, _ => dataContent data

def fieldMeanings : List (Value × Value) → Element → String → Option Content
  | [], _, _ => none
  | (.text key, value) :: rest, element, name =>
      (fieldMeanings rest element name).or
        (if name = key then some (meaning value element) else none)
  | _ :: rest, element, name => fieldMeanings rest element name

end

end Schema

end WebHarvest
