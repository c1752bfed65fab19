import WebHarvest.Value.Basic

/-!
# Payloads

A compiled schema travels to a page as plain data: a mapping with the node tree and the table of
functions. Each node is a mapping whose kind names the instruction.
-/

set_option autoImplicit false

namespace WebHarvest

def nodeRecord (kind : String) (slots : Record) : Value :=
  .record (("kind", .text kind) :: slots)

mutual

def Node.toValue : Node Value → Value
  | .text selector trim default =>
      nodeRecord "text" [("selector", selector), ("trim", trim), ("default", default)]
  | .attr selector attrName default =>
      nodeRecord "attr" [("selector", selector), ("attribute", attrName), ("default", default)]
  | .html selector default => nodeRecord "html" [("selector", selector), ("default", default)]
  | .presence selector => nodeRecord "exists" [("selector", selector)]
  | .count selector => nodeRecord "count" [("selector", selector)]
  | .array selector item => nodeRecord "array" [("selector", selector), ("item", item.toValue)]
  | .object fields => nodeRecord "object" [("fields", .list (Node.toValues fields))]
  | .callback ref => nodeRecord "callback" [("ref", .text ref)]
  | .value data => nodeRecord "value" [("value", data)]
  | .defective (.unknownKind kind) => .record [("kind", kind)]
  | .defective _ => .null

def Node.toValues : List (String × Node Value) → List Value
  | [] => []
  | (key, node) :: rest => .list [.text key, node.toValue] :: Node.toValues rest

end

def CompiledSchema.payload (schema : CompiledSchema Value) : Record :=
  [("root", schema.root.toValue),
    ("callbacks", .record (schema.callbacks.map fun (ref, source) => (ref, .text source)))]

end WebHarvest
