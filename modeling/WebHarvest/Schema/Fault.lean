import WebHarvest.Value.Display

/-!
# What makes a schema invalid

A fault names the place of the first offending field and its cause. Places are paths from the root:
a key of a mapping or the item of an array at each step.
-/

set_option autoImplicit false

namespace WebHarvest.Schema

inductive PathStep where
  | key (name : String)
  | item
  deriving DecidableEq, Repr

abbrev Path := List PathStep

/-- The text of a place: `$` for the root, then `.key` and `[]`. -/
def Path.render (path : Path) : String :=
  path.foldl
    (fun text step => match step with
      | .key name => text ++ "." ++ name
      | .item => text ++ "[]")
    "$"

inductive Fault where
  /-- The whole schema is of another type. -/
  | notAMapping (schema : Value)
  | keyNotText (path : Path) (key : Value)
  | hostFunction (path : Path)
  | emptySource (path : Path)
  /-- The source of a function is something, but no text. -/
  | sourceNotText (source : Value)
  | unknownKind (path : Path) (kind : Value)
  | missingAttribute (path : Path)
  | missingSelector (path : Path) (kind : FieldKind)
  | missingItem (path : Path)
  /-- Data that cannot be sent to a page. -/
  | notData (path : Path) (data : Value)
  /-- The whole extractor is a function of the host. -/
  | hostExtractor
  /-- The whole extractor is of a type that cannot describe an extraction. -/
  | unsupportedExtractor (extractor : Value)
  /-- The function to evaluate in a page has no source. -/
  | emptyPageFunction

def Fault.message : Fault → String
  | .notAMapping schema => "schema must be a mapping, got " ++ schema.typeName
  | .keyNotText path key => path.render ++ ": schema keys must be strings, got " ++ key.display
  | .hostFunction path =>
      path.render ++
        ": Python callables cannot run in the page; wrap JavaScript source with js()"
  | .emptySource path => path.render ++ ": callback source is empty"
  | .sourceNotText (.bytes _) => "cannot use a string pattern on a bytes-like object"
  | .sourceNotText source => "expected string or bytes-like object, got '" ++ source.typeName ++ "'"
  | .unknownKind path kind => path.render ++ ": unknown field kind " ++ kind.display
  | .missingAttribute path => path.render ++ ": attr() requires an attribute name"
  | .missingSelector path kind => path.render ++ ": " ++ kind.name ++ "() requires a selector"
  | .missingItem path => path.render ++ ": array() requires an item extractor"
  | .notData path data => path.render ++ ": value " ++ data.display ++ " is not JSON-serializable"
  | .hostExtractor =>
      "Python callables cannot run in the page; pass JavaScript source or js(...)"
  | .unsupportedExtractor extractor => "Unsupported extractor type: " ++ extractor.typeName
  | .emptyPageFunction => "page_function must be non-empty JavaScript source"

/-- Whether a fault is one of a value's type, which no rule of schemas mentions. -/
def Fault.isOfType : Fault → Bool
  | .sourceNotText _ => true
  | _ => false

end WebHarvest.Schema
