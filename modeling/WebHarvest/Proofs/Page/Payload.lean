import WebHarvest.Page.Payload
import WebHarvest.Schema.Payload

/-!
# Payloads of compiled schemas

A page that reads the payload of a compiled schema gets back the node tree, with every slot as page
data: nothing is lost on the way, and no node is defective unless the tree had such a node.
-/

set_option autoImplicit false

namespace WebHarvest

namespace Node

variable {α : Type}

mutual

/-- No node of the tree is defective. -/
def isSound : Node α → Bool
  | .array _ item => isSound item
  | .object fields => areSound fields
  | .defective _ => false
  | _ => true

/-- No node of the fields of a record is defective. -/
def areSound : List (String × Node α) → Bool
  | [] => true
  | (_, node) :: rest => isSound node && areSound rest

end

end Node

@[simp] theorem Datum.ofValue_text (s : String) : Datum.ofValue (.text s) = .text s := rfl

namespace Page

mutual

theorem read_data : ∀ value : Value, (read value).data = Datum.ofValue value
  | .map entries => by
      simp only [read, Datum.ofValue, readEntries_data entries]
  | .list items => by
      simp only [read, sequence, Datum.ofValue, readItems_data items]
  | .tuple items => by
      simp only [read, sequence, Datum.ofValue, readItems_data items]
  | .text s => rfl
  | .null => rfl
  | .bool b => rfl
  | .int n => rfl
  | .float x => rfl
  | .bytes data => rfl
  | .function => rfl
  | .stranger => rfl
  | .fieldKind kind => rfl
  | .descriptor .. => rfl
  | .script _ => rfl
  | .compiled .. => rfl
  | .options _ => rfl
  | .job .. => rfl

theorem readItems_data :
    ∀ items : List Value, (readItems items).map (·.data) = Datum.ofItems items
  | [] => rfl
  | item :: rest => by
      simp only [readItems, List.map_cons, Datum.ofItems, read_data item, readItems_data rest]

theorem readEntries_data : ∀ entries : List (Value × Value),
    (readEntries entries).map (fun (key, reading) => (key, reading.data)) =
      Datum.ofEntries entries
  | [] => rfl
  | (key, value) :: rest => by
      have tail := readEntries_data rest
      cases key with
      | text name =>
          simp only [readEntries, List.map_cons, Datum.ofEntries, read_data value, tail]
      | _ => simpa only [readEntries, Datum.ofEntries] using tail

end

theorem readEntries_record (entries : Record) :
    readEntries (entries.map fun (key, value) => (.text key, value)) =
      entries.map fun (key, value) => (key, read value) := by
  induction entries with
  | nil => rfl
  | cons entry rest ih =>
      obtain ⟨key, value⟩ := entry
      simp only [List.map_cons, readEntries, ih]

/-- The node that a page reads off a node written as data. -/
theorem read_nodeRecord (kind : String) (slots : Record) :
    (read (nodeRecord kind slots)).node =
      nodeOf ((("kind", .text kind) :: slots).map fun (key, value) => (key, read value)) := by
  simp only [nodeRecord, Value.record, read, readEntries_record]

mutual

/-- A page reads back the tree that was written, with its slots as page data. -/
theorem read_toValue : ∀ node : Node Value, node.isSound = true →
    (read node.toValue).node = node.map Datum.ofValue
  | .text selector trim default, _ => by
      simp [Node.toValue, read_nodeRecord, nodeOf, slot, read_data, Node.map]
  | .attr selector attrName default, _ => by
      simp [Node.toValue, read_nodeRecord, nodeOf, slot, read_data, Node.map]
  | .html selector default, _ => by
      simp [Node.toValue, read_nodeRecord, nodeOf, slot, read_data, Node.map]
  | .presence selector, _ => by
      simp [Node.toValue, read_nodeRecord, nodeOf, slot, read_data, Node.map]
  | .count selector, _ => by
      simp [Node.toValue, read_nodeRecord, nodeOf, slot, read_data, Node.map]
  | .array selector item, sound => by
      have itemRead := read_toValue item sound
      simp [Node.toValue, read_nodeRecord, nodeOf, slot, read_data, Node.map, itemRead]
  | .object fields, sound => by
      have fieldsRead := readItems_toValues fields sound
      simp [Node.toValue, read_nodeRecord, nodeOf, slot, Node.map, read, sequence, fieldsRead]
  | .callback ref, _ => by
      simp [Node.toValue, read_nodeRecord, nodeOf, slot, read_data, Node.map, Datum.asText]
  | .value data, _ => by
      simp [Node.toValue, read_nodeRecord, nodeOf, slot, read_data, Node.map]
  | .defective _, sound => by cases sound

theorem readItems_toValues : ∀ fields : List (String × Node Value), Node.areSound fields = true →
    (readItems (Node.toValues fields)).map (·.field) = Node.mapFields Datum.ofValue fields
  | [], _ => rfl
  | (key, node) :: rest, sound => by
      simp only [Node.areSound, Bool.and_eq_true] at sound
      have head := read_toValue node sound.1
      have tail := readItems_toValues rest sound.2
      simp [Node.toValues, readItems, Node.mapFields, read, sequence, Datum.asText, head, tail]

end

theorem interpretPayload_payload (schema : CompiledSchema Value)
    (sound : schema.root.isSound = true) (elements : List Element) :
    interpretPayload (.record schema.payload) elements = extract schema elements := by
  have rootRead := read_toValue schema.root sound
  simp [interpretPayload, payloadSlots, CompiledSchema.payload, Value.record, readEntries, slot,
    read_data, Datum.ofValue, Datum.ofFields, rootRead, extract]

end Page

end WebHarvest
