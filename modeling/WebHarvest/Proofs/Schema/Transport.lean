import WebHarvest.Proofs.Json.Data
import WebHarvest.Proofs.Schema.Callbacks
import WebHarvest.Schema.Payload
import WebHarvest.Value.Equality

/-!
# Sending compiled schemas

Compilation checks the type of defaults and of static data, but not their numbers, and it does not
check the other slots of a descriptor at all. So the payload of a compiled schema is JSON data
exactly when the numbers fit and the slots that its nodes take over are JSON data themselves; then
the text of the payload is read back as an equal payload. A compilation that fails does so with a
fault of the schema, unless the source of a function is neither a text nor empty.
-/

set_option autoImplicit false

namespace WebHarvest

namespace Json

/-- JSON data: null, booleans, numbers that are finite and not too long, texts, lists, and mappings
from distinct texts, nested in any way. -/
def IsJson (value : Value) : Prop := IsPortable .plain 0 value

theorem IsPortable.isJson {levels : Nat} {value : Value}
    (portable : IsPortable .plain levels value) : IsJson value := by
  cases portable with
  | null => exact .null
  | bool => exact .bool
  | int fits => exact .int fits
  | float finite => exact .float finite
  | text => exact .text
  | fieldKind => exact .fieldKind
  | list _ inner => exact .list nofun inner
  | map named distinct _ inner => exact .map named distinct nofun inner

theorem isJson_list {items : List Value} : IsJson (.list items) ↔ ∀ item ∈ items, IsJson item := by
  constructor
  · intro portable
    cases portable with
    | list _ inner => exact fun item member => (inner item member).isJson
  · exact fun inner => .list nofun inner

theorem isJson_map {entries : List (Value × Value)} :
    IsJson (.map entries) ↔ (∀ entry ∈ entries, entry.1.asText?.isSome = true) ∧
      (entries.map fun entry => entry.1.textOf).Nodup ∧ ∀ entry ∈ entries, IsJson entry.2 := by
  constructor
  · intro portable
    cases portable with
    | map named distinct _ inner =>
        exact ⟨named, distinct, fun entry member => (inner entry member).isJson⟩
  · exact fun ⟨named, distinct, inner⟩ => .map named distinct nofun inner

theorem isJson_record {record : Record} (distinct : (record.map Prod.fst).Nodup) :
    IsJson (.record record) ↔ ∀ entry ∈ record, IsJson entry.2 := by
  rw [Value.record, isJson_map, List.map_map]
  exact (and_iff_right named_record).trans ((and_iff_right distinct).trans List.forall_mem_map)

end Json

namespace Schema

open Json

section Data

mutual

/-- The numbers within data are finite and not too long, and its mappings have distinct keys. -/
def FitsData : Value → Prop
  | .int n => FitsInt .plain n
  | .float x => x.isFinite = true
  | .list items => FitsItems items
  | .tuple items => FitsItems items
  | .map entries => (entries.map fun entry => entry.1.textOf).Nodup ∧ FitsEntries entries
  | _ => True

def FitsItems : List Value → Prop
  | [] => True
  | item :: rest => FitsData item ∧ FitsItems rest

def FitsEntries : List (Value × Value) → Prop
  | [] => True
  | (_, value) :: rest => FitsData value ∧ FitsEntries rest

end

theorem named_of_textKeys {entries : List (Value × Value)}
    (textKeys : (entries.all fun (key, _) => key matches .text _) = true) :
    ∀ key ∈ entries.map Prod.fst, key.asText?.isSome = true := by
  rw [List.forall_mem_map]
  rintro ⟨key, value⟩ member
  have isText := List.all_eq_true.mp textKeys (key, value) member
  cases key with
  | text => rfl
  | _ => cases isText

mutual

/-- What a check of data lets through is JSON data exactly when the numbers fit. -/
theorem checkData_isJson_iff {path : Path} (value : Value) {data : Value}
    (checked : checkData path value = .ok data) : IsJson data ↔ FitsData value := by
  cases value with
  | null =>
      cases checked
      exact iff_of_true .null trivial
  | bool =>
      cases checked
      exact iff_of_true .bool trivial
  | int n =>
      cases checked
      exact ⟨fun | .int fits => fits, .int⟩
  | float x =>
      cases checked
      exact ⟨fun | .float finite => finite, .float⟩
  | text =>
      cases checked
      exact iff_of_true .text trivial
  | fieldKind =>
      cases checked
      exact iff_of_true .text trivial
  | list items =>
      obtain ⟨sent, itemsChecked, same⟩ := Outcome.bind_ok_iff.mp checked
      cases same
      exact isJson_list.trans (checkItems_isJson_iff items itemsChecked)
  | tuple items =>
      obtain ⟨sent, itemsChecked, same⟩ := Outcome.bind_ok_iff.mp checked
      cases same
      exact isJson_list.trans (checkItems_isJson_iff items itemsChecked)
  | map entries =>
      rw [checkData] at checked
      split at checked
      · rename_i textKeys
        obtain ⟨sent, entriesChecked, same⟩ := Outcome.bind_ok_iff.mp checked
        cases same
        obtain ⟨keys, inner⟩ := checkEntries_isJson_iff entries entriesChecked
        have named : ∀ key ∈ sent.map Prod.fst, key.asText?.isSome = true := by
          rw [keys]
          exact named_of_textKeys textKeys
        have texts : (sent.map fun entry => entry.1.textOf) =
            entries.map fun entry => entry.1.textOf := by
          have same := congrArg (List.map Value.textOf) keys
          rwa [List.map_map, List.map_map] at same
        rw [isJson_map, texts, inner, FitsData]
        exact and_iff_right (List.forall_mem_map.mp named)
      · cases checked
  | _ => cases checked

theorem checkItems_isJson_iff {path : Path} (items : List Value) {data : List Value}
    (checked : checkItems path items = .ok data) :
    (∀ item ∈ data, IsJson item) ↔ FitsItems items := by
  cases items with
  | nil =>
      cases checked
      exact iff_of_true nofun trivial
  | cons item rest =>
      obtain ⟨head, headChecked, checked⟩ := Outcome.bind_ok_iff.mp checked
      obtain ⟨tail, tailChecked, same⟩ := Outcome.bind_ok_iff.mp checked
      cases same
      rw [List.forall_mem_cons, checkData_isJson_iff item headChecked,
        checkItems_isJson_iff rest tailChecked, FitsItems]

theorem checkEntries_isJson_iff {path : Path} (entries : List (Value × Value))
    {data : List (Value × Value)} (checked : checkEntries path entries = .ok data) :
    data.map Prod.fst = entries.map Prod.fst ∧
      ((∀ entry ∈ data, IsJson entry.2) ↔ FitsEntries entries) := by
  cases entries with
  | nil =>
      cases checked
      exact ⟨rfl, iff_of_true nofun trivial⟩
  | cons entry rest =>
      obtain ⟨key, value⟩ := entry
      obtain ⟨head, headChecked, checked⟩ := Outcome.bind_ok_iff.mp checked
      obtain ⟨tail, tailChecked, same⟩ := Outcome.bind_ok_iff.mp checked
      cases same
      obtain ⟨keys, inner⟩ := checkEntries_isJson_iff rest tailChecked
      refine ⟨congrArg (key :: ·) keys, ?_⟩
      rw [List.forall_mem_cons, checkData_isJson_iff value headChecked, inner, FitsEntries]

end

end Data

section Payload

mutual

/-- The slots that a field hands over to its node are JSON data, and the numbers within its data
fit. -/
def Sendable : Value → Prop
  | .descriptor kind selector attrName trim default item =>
      match kindOf? kind with
      | some .text => IsJson selector ∧ IsJson trim ∧ FitsData default
      | some .attr => IsJson selector ∧ IsJson attrName ∧ FitsData default
      | some .html => IsJson selector ∧ FitsData default
      | some .array => IsJson selector ∧ Sendable item
      | some .presence => IsJson selector
      | some .count => IsJson selector
      | none => True
  | .script _ => True
  | .map entries => SendableEach entries
  | data => FitsData data

def SendableEach : List (Value × Value) → Prop
  | [] => True
  | (_, value) :: rest => Sendable value ∧ SendableEach rest

end

theorem isJson_nodeRecord {kind : String} {slots : Record}
    (distinct : ("kind" :: slots.map Prod.fst).Nodup) :
    IsJson (nodeRecord kind slots) ↔ ∀ entry ∈ slots, IsJson entry.2 := by
  have named : ((("kind", Value.text kind) :: slots).map Prod.fst).Nodup := distinct
  rw [nodeRecord, isJson_record named, List.forall_mem_cons]
  exact and_iff_right .text

theorem sendable_of_static {value : Value} (static : isStatic value = true) :
    Sendable value = FitsData value := by
  cases value with
  | descriptor => cases static
  | script => cases static
  | map => cases static
  | _ => rfl

mutual

/-- The node of a field is JSON data exactly when the field can be sent. -/
theorem Compiles.isJson_iff {value : Value} {sources after : List String} {node : Node Value}
    (compiles : Compiles value sources node after) : IsJson node.toValue ↔ Sendable value := by
  cases compiles with
  | text kindIs checked =>
      rw [Node.toValue, isJson_nodeRecord (by simp)]
      simp [Sendable, kindIs, checkData_isJson_iff _ checked]
  | attr kindIs _ checked =>
      rw [Node.toValue, isJson_nodeRecord (by simp)]
      simp [Sendable, kindIs, checkData_isJson_iff _ checked]
  | html kindIs checked =>
      rw [Node.toValue, isJson_nodeRecord (by simp)]
      simp [Sendable, kindIs, checkData_isJson_iff _ checked]
  | presence kindIs =>
      rw [Node.toValue, isJson_nodeRecord (by simp)]
      simp [Sendable, kindIs]
  | count kindIs =>
      rw [Node.toValue, isJson_nodeRecord (by simp)]
      simp [Sendable, kindIs]
  | array kindIs _ _ compiled =>
      rw [Node.toValue, isJson_nodeRecord (by simp)]
      simp [Sendable, kindIs, compiled.isJson_iff]
  | script =>
      rw [Node.toValue, isJson_nodeRecord (by simp), List.forall_mem_singleton, Sendable]
      exact iff_of_true .text trivial
  | map compiled =>
      rw [Node.toValue, isJson_nodeRecord (by simp), List.forall_mem_singleton, isJson_list,
        compiled.isJson_iff, Sendable]
  | static static checked =>
      rw [Node.toValue, isJson_nodeRecord (by simp), List.forall_mem_singleton,
        checkData_isJson_iff _ checked, sendable_of_static static]

theorem CompilesFields.isJson_iff {entries : List (Value × Value)} {sources after : List String}
    {fields : List (String × Node Value)} (compiles : CompilesFields entries sources fields after) :
    (∀ field ∈ Node.toValues fields, IsJson field) ↔ SendableEach entries := by
  cases compiles with
  | nil => exact iff_of_true nofun trivial
  | cons head tail =>
      rw [Node.toValues, List.forall_mem_cons, isJson_list, List.forall_mem_cons,
        List.forall_mem_singleton, head.isJson_iff, tail.isJson_iff, SendableEach]
      exact and_congr_left' (and_iff_right .text)

end

end Payload

section Failures

/-- Some of the functions has a source that is neither a text nor empty, and the fault says so. -/
def IsSourceFault (scripts : List (Place × Value)) (fault : Fault) : Prop :=
  ∃ script ∈ scripts, script.2.asText? = none ∧ script.2.isEmpty = false ∧
    fault = .sourceNotText script.2

theorem IsSourceFault.below {scripts : List (Place × Value)} {fault : Fault}
    (odd : IsSourceFault scripts fault) (step : Nat) :
    IsSourceFault (Place.below step scripts) fault := by
  obtain ⟨script, member, odd⟩ := odd
  exact ⟨(step :: script.1, script.2), List.mem_map.mpr ⟨script, member, rfl⟩, odd⟩

theorem IsSourceFault.entry {value : Value} {fault : Fault}
    (odd : IsSourceFault (scriptsOf value) fault) (before after : List (Value × Value))
    (key : Value) (index : Nat) :
    IsSourceFault (scriptsFrom index (before ++ (key, value) :: after)) fault := by
  induction before generalizing index with
  | nil =>
      obtain ⟨script, member, odd⟩ := odd.below index
      exact ⟨script, List.mem_append_left _ member, odd⟩
  | cons entry before ih =>
      obtain ⟨script, member, odd⟩ := ih (index + 1)
      exact ⟨script, List.mem_append_right _ member, odd⟩

end Failures

end Schema

end WebHarvest
