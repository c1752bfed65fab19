import WebHarvest.Config.Options
import WebHarvest.Json.Writer
import WebHarvest.Schema.Payload

/-!
# Making data plain

Session files and ledger lines hold data that nobody has checked: any value may stand in a cookie or
in the payload of a signal. Before it is written it is made plain: bytes become texts, sequences
become lists, keys become texts, and building blocks of schemas become mappings of their fields.
Two keys may become the same text; both entries are kept.
-/

set_option autoImplicit false

namespace WebHarvest.Json

/-- Values may be nested so deep; a value that is no container is a level of its own. -/
def depthLimit : Nat := 255

def textOfBytes (data : List UInt8) : Except Fault String :=
  match Text.utf8? data, Text.utf8Fault? data with
  | some text, _ => .ok text
  | none, fault => .error (.notUtf8 (fault.getD (.incomplete 0)))

/-- The text that a key becomes. A number that is not finite has no text of its own. -/
def plainKey : Value → Except Fault String
  | .null => .ok "None"
  | .bool b => .ok (if b then "true" else "false")
  | .int n => .ok (toString n)
  | .float x => .ok (if x.isFinite then Double.displayLayout.render x else "None")
  | .text s => .ok s
  | .fieldKind kind => .ok kind.name
  | .bytes data =>
      match Text.utf8? data, Text.utf8Fault? data with
      | some text, _ => .ok text
      | none, fault =>
          let fault := fault.getD (.incomplete 0)
          .error (.keyNotUtf8 (data[fault.index]?.getD 0) fault)
  | .tuple items => return ",".intercalate (← plainKeys items)
  | .function => .error (.unknownType Value.function.typeName)
  | .stranger => .error (.unknownType Value.stranger.typeName)
  | key => .ok key.display
where
  plainKeys : List Value → Except Fault (List String)
    | [] => .ok []
    | item :: rest => return (← plainKey item) :: (← plainKeys rest)

def plainWithin : Nat → Value → Except Fault Value
  | 0, _ => .error .tooDeep
  | depth + 1, value =>
      let fields (record : Record) : Except Fault Value :=
        return .record (← record.mapM fun (key, value) =>
          return (key, ← plainWithin depth value))
      match value with
      | .bytes data => .text <$> textOfBytes data
      | .list items => return .list (← items.mapM (plainWithin depth))
      | .tuple items => return .list (← items.mapM (plainWithin depth))
      | .map entries =>
          return .map (← entries.mapM fun (key, value) =>
            return (.text (← plainKey key), ← plainWithin depth value))
      | .descriptor kind selector attrName trim default item =>
          fields [("kind", kind), ("selector", selector), ("attribute", attrName),
            ("trim", trim), ("default", default), ("item", item)]
      | .script source => fields [("source", source)]
      | .compiled root callbacks => fields (CompiledSchema.payload ⟨root, callbacks⟩)
      | .options options => .ok (.record options.record)
      | .job url selector extractor options =>
          fields [("url", .text url), ("selector", .text selector), ("extractor", extractor),
            ("options", .options options)]
      | .function => .error (.unknownType value.typeName)
      | .stranger => .error (.unknownType value.typeName)
      | value => .ok value

def plainRecord (record : Record) : Except Fault Value :=
  return .record (← record.mapM fun (key, value) =>
    return (key, ← plainWithin depthLimit value))

end WebHarvest.Json
