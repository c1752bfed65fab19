import Mathlib.Logic.Function.Basic
import WebHarvest.Proofs.Schema.Derivation
import WebHarvest.Value.Access

/-!
# The functions of a schema

A schema is walked depth-first and from left to right. The functions met on the way are numbered in
that order: the tree of the compiled schema refers to them by their numbers, and its table lists
their sources under them. A schema that is part of a larger one is compiled as if it stood alone,
but for the numbers, which go on from those of the functions met before it.
-/

set_option autoImplicit false

namespace WebHarvest

/-- Steps from a field to one inside it: the number of an entry of a mapping, or zero for the item
of an array. Fields are met in the lexicographic order of their places. -/
abbrev Place := List Nat

def Place.below {α : Type} (step : Nat) (met : List (Place × α)) : List (Place × α) :=
  met.map fun (place, found) => (step :: place, found)

/-- What is met in parts that are walked one after another and numbered from `index` on. -/
def Place.gather {α β : Type} (walk : β → List (Place × α)) (index : Nat) :
    List β → List (Place × α)
  | [] => []
  | part :: rest => Place.below index (walk part) ++ Place.gather walk (index + 1) rest

namespace Place

variable {α β : Type}

theorem mem_below {step : Nat} {met : List (Place × α)} {place : Place} {found : α} :
    (place, found) ∈ Place.below step met ↔
      ∃ inner, place = step :: inner ∧ (inner, found) ∈ met := by
  simp only [Place.below, List.mem_map, Prod.exists, Prod.mk.injEq]
  constructor
  · rintro ⟨inner, other, member, rfl, rfl⟩
    exact ⟨inner, rfl, member⟩
  · rintro ⟨inner, rfl, member⟩
    exact ⟨inner, found, member, rfl, rfl⟩

theorem mem_gather {walk : β → List (Place × α)} {parts : List β} {index : Nat} {place : Place}
    {found : α} :
    (place, found) ∈ gather walk index parts ↔
      ∃ step part inner, parts[step]? = some part ∧ place = (index + step) :: inner ∧
        (inner, found) ∈ walk part := by
  induction parts generalizing index with
  | nil => simp [gather]
  | cons first rest ih =>
      rw [gather, List.mem_append, mem_below, ih]
      constructor
      · rintro (⟨inner, rfl, member⟩ | ⟨step, part, inner, there, rfl, member⟩)
        · exact ⟨0, first, inner, rfl, rfl, member⟩
        · exact ⟨step + 1, part, inner, there, by rw [Nat.add_assoc, Nat.add_comm 1], member⟩
      · rintro ⟨step, part, inner, there, rfl, member⟩
        cases step with
        | zero =>
            cases there
            exact Or.inl ⟨inner, rfl, member⟩
        | succ step =>
            exact Or.inr ⟨step, part, inner, there, by rw [Nat.add_assoc, Nat.add_comm 1], member⟩

end Place

namespace Schema

mutual

/-- The functions of a field, by their sources, with their places. -/
def scriptsOf : Value → List (Place × Value)
  | .descriptor kind _ _ _ _ item =>
      if kindOf? kind = some .array then Place.below 0 (scriptsOf item) else []
  | .script source => [([], source)]
  | .map entries => scriptsFrom 0 entries
  | _ => []

def scriptsFrom (index : Nat) : List (Value × Value) → List (Place × Value)
  | [] => []
  | (_, value) :: rest => Place.below index (scriptsOf value) ++ scriptsFrom (index + 1) rest

end

/-- The field at a place inside another one. -/
def fieldAt? : Place → Value → Option Value
  | [], field => some field
  | step :: place, .descriptor kind _ _ _ _ item =>
      if kindOf? kind = some .array ∧ step = 0 then fieldAt? place item else none
  | step :: place, .map entries => entries[step]?.bind fun entry => fieldAt? place entry.2
  | _, _ => none

end Schema

namespace Node

variable {α : Type}

mutual

/-- The references to functions in a tree, with their places. -/
def callbacksOf : Node α → List (Place × String)
  | .array _ item => Place.below 0 (callbacksOf item)
  | .callback ref => [([], ref)]
  | .object fields => callbacksFrom 0 fields
  | _ => []

def callbacksFrom (index : Nat) : List (String × Node α) → List (Place × String)
  | [] => []
  | (_, node) :: rest => Place.below index (callbacksOf node) ++ callbacksFrom (index + 1) rest

end

def at? : Place → Node α → Option (Node α)
  | [], node => some node
  | step :: place, .array _ item => if step = 0 then at? place item else none
  | step :: place, .object fields => fields[step]?.bind fun field => at? place field.2
  | _, _ => none

mutual

def mapRefs (f : String → String) : Node α → Node α
  | .array selector item => .array selector (mapRefs f item)
  | .callback ref => .callback (f ref)
  | .object fields => .object (mapFieldRefs f fields)
  | node => node

def mapFieldRefs (f : String → String) : List (String × Node α) → List (String × Node α)
  | [] => []
  | (key, node) :: rest => (key, mapRefs f node) :: mapFieldRefs f rest

end

theorem callbacksFrom_eq_gather (index : Nat) (fields : List (String × Node α)) :
    callbacksFrom index fields = Place.gather (fun field => field.2.callbacksOf) index fields := by
  induction fields generalizing index with
  | nil => rfl
  | cons first rest ih => rw [callbacksFrom, Place.gather, ih]

theorem mem_callbacksFrom {fields : List (String × Node α)} {index : Nat} {place : Place}
    {ref : String} :
    (place, ref) ∈ callbacksFrom index fields ↔
      ∃ step field inner, fields[step]? = some field ∧ place = (index + step) :: inner ∧
        (inner, ref) ∈ field.2.callbacksOf := by
  rw [callbacksFrom_eq_gather, Place.mem_gather]

/-- The walk meets every reference to a function in the tree, and nothing else. -/
theorem mem_callbacksOf {node : Node α} {place : Place} {ref : String} :
    (place, ref) ∈ node.callbacksOf ↔ node.at? place = some (.callback ref) := by
  induction place generalizing node with
  | nil =>
      cases node with
      | array selector item => simp [callbacksOf, Place.mem_below, at?]
      | object fields => simp [callbacksOf, mem_callbacksFrom, at?]
      | callback other => simp [callbacksOf, at?, eq_comm]
      | _ => simp [callbacksOf, at?]
  | cons step place ih =>
      cases node with
      | array selector item =>
          by_cases first : step = 0
          · simp [callbacksOf, Place.mem_below, at?, first, ih]
          · simp [callbacksOf, Place.mem_below, at?, first]
      | object fields =>
          rw [callbacksOf, mem_callbacksFrom, at?, Option.bind_eq_some_iff]
          constructor
          · rintro ⟨other, field, inner, found, same, member⟩
            rw [Nat.zero_add] at same
            cases same
            exact ⟨field, found, ih.mp member⟩
          · rintro ⟨field, found, there⟩
            exact ⟨step, field, place, found, by rw [Nat.zero_add], ih.mpr there⟩
      | callback other => simp [callbacksOf, at?]
      | _ => simp [callbacksOf, at?]

end Node

namespace Schema

theorem scriptsFrom_eq_gather (index : Nat) (entries : List (Value × Value)) :
    scriptsFrom index entries = Place.gather (fun entry => scriptsOf entry.2) index entries := by
  induction entries generalizing index with
  | nil => rfl
  | cons first rest ih => rw [scriptsFrom, Place.gather, ih]

theorem mem_scriptsFrom {entries : List (Value × Value)} {index : Nat} {place : Place}
    {source : Value} :
    (place, source) ∈ scriptsFrom index entries ↔
      ∃ step entry inner, entries[step]? = some entry ∧ place = (index + step) :: inner ∧
        (inner, source) ∈ scriptsOf entry.2 := by
  rw [scriptsFrom_eq_gather, Place.mem_gather]

/-- The walk meets every function of a field, and nothing else. -/
theorem mem_scriptsOf {value : Value} {place : Place} {source : Value} :
    (place, source) ∈ scriptsOf value ↔ fieldAt? place value = some (.script source) := by
  induction place generalizing value with
  | nil =>
      cases value with
      | descriptor kind =>
          by_cases isArray : kindOf? kind = some .array
          · simp [scriptsOf, isArray, Place.mem_below, fieldAt?]
          · simp [scriptsOf, isArray, fieldAt?]
      | script other => simp [scriptsOf, fieldAt?, eq_comm]
      | map entries => simp [scriptsOf, mem_scriptsFrom, fieldAt?]
      | _ => simp [scriptsOf, fieldAt?]
  | cons step place ih =>
      cases value with
      | descriptor kind =>
          by_cases isArray : kindOf? kind = some .array
          · by_cases first : step = 0
            · simp [scriptsOf, isArray, Place.mem_below, fieldAt?, first, ih]
            · simp [scriptsOf, isArray, Place.mem_below, fieldAt?, first]
          · simp [scriptsOf, isArray, fieldAt?]
      | map entries =>
          rw [scriptsOf, mem_scriptsFrom, fieldAt?, Option.bind_eq_some_iff]
          constructor
          · rintro ⟨other, entry, inner, found, same, member⟩
            rw [Nat.zero_add] at same
            cases same
            exact ⟨entry, found, ih.mp member⟩
          · rintro ⟨entry, found, there⟩
            exact ⟨step, entry, place, found, by rw [Nat.zero_add], ih.mpr there⟩
      | _ => simp [scriptsOf, fieldAt?]

def numbered (before : Nat) (scripts : List (Place × Value)) : List (Place × String) :=
  (scripts.zipIdx before).map fun (script, index) => (script.1, callbackRef index)

theorem numbered_append (before : Nat) (front back : List (Place × Value)) :
    numbered before (front ++ back) =
      numbered before front ++ numbered (before + front.length) back := by
  simp only [numbered, List.zipIdx_append, List.map_append]

theorem numbered_below (before step : Nat) (scripts : List (Place × Value)) :
    numbered before (Place.below step scripts) = Place.below step (numbered before scripts) := by
  simp only [numbered, Place.below, List.zipIdx_map, List.map_map]
  rfl

def cleanedSources (scripts : List (Place × Value)) : List String :=
  scripts.map fun script => cleanSource script.2.textOf

theorem cleanedSources_append (front back : List (Place × Value)) :
    cleanedSources (front ++ back) = cleanedSources front ++ cleanedSources back :=
  List.map_append

theorem cleanedSources_below (step : Nat) (scripts : List (Place × Value)) :
    cleanedSources (Place.below step scripts) = cleanedSources scripts := by
  simp only [cleanedSources, Place.below, List.map_map]
  rfl

theorem scriptsOf_of_static {value : Value} (static : isStatic value = true) :
    scriptsOf value = [] := by
  cases value with
  | descriptor => cases static
  | script => cases static
  | map => cases static
  | _ => rfl

mutual

/-- Compiling a field adds the sources of its functions to the table, and its tree refers to them by
their numbers there. -/
theorem Compiles.callbacks {value : Value} {sources after : List String} {node : Node Value}
    (compiles : Compiles value sources node after) :
    node.callbacksOf = numbered sources.length (scriptsOf value) ∧
      after = sources ++ cleanedSources (scriptsOf value) := by
  cases compiles with
  | array kindIs selected given compiled =>
      obtain ⟨refs, table⟩ := compiled.callbacks
      rw [Node.callbacksOf, scriptsOf, if_pos kindIs, numbered_below, cleanedSources_below, refs]
      exact ⟨rfl, table⟩
  | @script source text sources written present =>
      have textOf : source.textOf = text := by rw [Value.textOf, written, Option.getD_some]
      simp [Node.callbacksOf, scriptsOf, numbered, cleanedSources, textOf]
  | map compiled => exact compiled.callbacks 0
  | static static checked =>
      rw [scriptsOf_of_static static]
      exact ⟨rfl, (List.append_nil _).symm⟩
  | text kindIs => simp [Node.callbacksOf, scriptsOf, kindIs, numbered, cleanedSources]
  | attr kindIs => simp [Node.callbacksOf, scriptsOf, kindIs, numbered, cleanedSources]
  | html kindIs => simp [Node.callbacksOf, scriptsOf, kindIs, numbered, cleanedSources]
  | presence kindIs => simp [Node.callbacksOf, scriptsOf, kindIs, numbered, cleanedSources]
  | count kindIs => simp [Node.callbacksOf, scriptsOf, kindIs, numbered, cleanedSources]

theorem CompilesFields.callbacks {entries : List (Value × Value)} {sources after : List String}
    {fields : List (String × Node Value)} (compiles : CompilesFields entries sources fields after)
    (index : Nat) :
    Node.callbacksFrom index fields = numbered sources.length (scriptsFrom index entries) ∧
      after = sources ++ cleanedSources (scriptsFrom index entries) := by
  cases compiles with
  | nil => exact ⟨rfl, (List.append_nil _).symm⟩
  | @cons key value node entries fields sources middle after head tail =>
      obtain ⟨headRefs, headTable⟩ := head.callbacks
      obtain ⟨tailRefs, tailTable⟩ := tail.callbacks (index + 1)
      have count :
          middle.length = sources.length + (Place.below index (scriptsOf value)).length := by
        rw [headTable, List.length_append, cleanedSources, List.length_map, Place.below,
          List.length_map]
      rw [Node.callbacksFrom, scriptsFrom, numbered_append, numbered_below, ← headRefs, ← count,
        tailRefs, cleanedSources_append, cleanedSources_below, tailTable, headTable,
        List.append_assoc]
      exact ⟨rfl, rfl⟩

end

theorem callbackRef_injective : Function.Injective callbackRef := by
  intro index other same
  have numerals : toString index = toString other := (String.append_right_inj _).mp same
  rw [Nat.toString_eq_ofList_toDigits, Nat.toString_eq_ofList_toDigits] at numerals
  have digits : Nat.toDigits 10 index = Nat.toDigits 10 other := String.ofList_injective numerals
  rw [← Nat.ofDigitChars_ten_toDigits (n := index), digits, Nat.ofDigitChars_ten_toDigits]

/-- Adds to the number in a reference. -/
noncomputable def shiftRef (shift : Nat) : String → String :=
  Function.extend callbackRef (fun index => callbackRef (index + shift)) id

theorem shiftRef_callbackRef (shift index : Nat) :
    shiftRef shift (callbackRef index) = callbackRef (index + shift) :=
  callbackRef_injective.extend_apply _ _ index

mutual

/-- What is in the table before a field is compiled only shifts the numbers of its functions. -/
theorem Compiles.shifted {value : Value} {sources after : List String} {node : Node Value}
    (compiles : Compiles value sources node after) {alone : List String} {shift : Nat}
    (met : sources.length = alone.length + shift) :
    ∃ own rest, Compiles value alone own rest ∧ node = own.mapRefs (shiftRef shift) ∧
      after.length = rest.length + shift := by
  cases compiles with
  | array kindIs selected given compiled =>
      obtain ⟨own, rest, compiles, rfl, count⟩ := compiled.shifted met
      exact ⟨_, rest, .array kindIs selected given compiles, rfl, count⟩
  | @script source text sources written present =>
      refine ⟨_, _, .script written present, ?_, ?_⟩
      · rw [Node.mapRefs, shiftRef_callbackRef, ← met]
      · rw [List.length_append, List.length_append, List.length_singleton, met]
        omega
  | map compiled =>
      obtain ⟨own, rest, compiles, rfl, count⟩ := compiled.shifted met
      exact ⟨_, rest, .map compiles, rfl, count⟩
  | static static checked => exact ⟨_, alone, .static static checked, rfl, met⟩
  | text kindIs checked => exact ⟨_, alone, .text kindIs checked, rfl, met⟩
  | attr kindIs named checked => exact ⟨_, alone, .attr kindIs named checked, rfl, met⟩
  | html kindIs checked => exact ⟨_, alone, .html kindIs checked, rfl, met⟩
  | presence kindIs => exact ⟨_, alone, .presence kindIs, rfl, met⟩
  | count kindIs selected => exact ⟨_, alone, .count kindIs selected, rfl, met⟩

theorem CompilesFields.shifted {entries : List (Value × Value)} {sources after : List String}
    {fields : List (String × Node Value)} (compiles : CompilesFields entries sources fields after)
    {alone : List String} {shift : Nat} (met : sources.length = alone.length + shift) :
    ∃ own rest, CompilesFields entries alone own rest ∧
      fields = Node.mapFieldRefs (shiftRef shift) own ∧ after.length = rest.length + shift := by
  cases compiles with
  | nil => exact ⟨[], alone, .nil, rfl, met⟩
  | cons head tail =>
      obtain ⟨node, middle, headCompiles, rfl, metMiddle⟩ := head.shifted met
      obtain ⟨own, rest, tailCompiles, rfl, count⟩ := tail.shifted metMiddle
      exact ⟨_, rest, .cons headCompiles tailCompiles, rfl, count⟩

end

theorem countP_below (step first : Nat) (scripts : List (Place × Value)) (place : Place) :
    (Place.below step scripts).countP (fun script => script.1 < first :: place) =
      if step < first then scripts.length
      else if step = first then scripts.countP (fun script => script.1 < place) else 0 := by
  rw [Place.below, List.countP_map]
  split
  · rename_i earlier
    rw [List.countP_eq_length]
    intro script _
    simp [List.cons_lt_cons_iff, earlier]
  · rename_i notEarlier
    split
    · rename_i same
      subst same
      simp only [Function.comp_def, List.cons_lt_cons_iff, Nat.lt_irrefl, false_or, true_and]
    · rename_i different
      rw [List.countP_eq_zero]
      intro script _
      simp [List.cons_lt_cons_iff, notEarlier, different]

theorem scriptsFrom_steps {entries : List (Value × Value)} {base : Nat} {script : Place × Value}
    (met : script ∈ scriptsFrom base entries) :
    ∃ step place, script.1 = step :: place ∧ base ≤ step := by
  obtain ⟨step, _, inner, _, same, _⟩ := mem_scriptsFrom.mp met
  exact ⟨base + step, inner, same, Nat.le_add_right base step⟩

theorem countP_scriptsFrom_of_later {first base : Nat} (later : first < base)
    (entries : List (Value × Value)) (place : Place) :
    (scriptsFrom base entries).countP (fun script => script.1 < first :: place) = 0 := by
  rw [List.countP_eq_zero]
  intro script met
  obtain ⟨step, inner, same, above⟩ := scriptsFrom_steps met
  rw [same, decide_eq_true_eq, List.cons_lt_cons_iff]
  omega

theorem CompilesFields.entry {entries : List (Value × Value)} {sources after : List String}
    {fields : List (String × Node Value)} (compiles : CompilesFields entries sources fields after)
    {step : Nat} {entry : Value × Value} (found : entries[step]? = some entry) (base : Nat)
    (place : Place) :
    ∃ field middle rest, fields[step]? = some field ∧ Compiles entry.2 middle field.2 rest ∧
      middle.length + (scriptsOf entry.2).countP (fun script => script.1 < place) =
        sources.length + (scriptsFrom base entries).countP
          (fun script => script.1 < (base + step) :: place) := by
  induction entries generalizing step base sources fields with
  | nil => cases found
  | cons first others ih =>
      cases compiles with
      | @cons key value node entries fields sources middle after head tail =>
          cases step with
          | zero =>
              cases found
              refine ⟨_, sources, middle, rfl, head, ?_⟩
              rw [scriptsFrom, List.countP_append, Nat.add_zero, countP_below, if_neg (by omega),
                if_pos rfl, countP_scriptsFrom_of_later (Nat.lt_succ_self _), Nat.add_zero]
          | succ step =>
              obtain ⟨field, inner, rest, there, compiled, count⟩ := ih tail found (base + 1)
              have shift : base + (step + 1) = base + 1 + step := by omega
              refine ⟨field, inner, rest, there, compiled, ?_⟩
              rw [count, scriptsFrom, List.countP_append, countP_below, if_pos (by omega), shift,
                head.callbacks.2, List.length_append, cleanedSources, List.length_map]
              omega

/-- What stands at a place in a field is compiled to the node at that place, after the functions
that are met before it. -/
theorem Compiles.at {value : Value} {sources after : List String} {node : Node Value}
    (compiles : Compiles value sources node after) {place : Place} {field : Value}
    (found : fieldAt? place value = some field) :
    ∃ part middle rest, node.at? place = some part ∧ Compiles field middle part rest ∧
      middle.length =
        sources.length + (scriptsOf value).countP (fun script => script.1 < place) := by
  induction place generalizing value sources node after with
  | nil =>
      rw [fieldAt?] at found
      cases found
      refine ⟨node, sources, after, by rw [Node.at?], compiles, ?_⟩
      have none : (scriptsOf field).countP (fun script => script.1 < ([] : Place)) = 0 :=
        List.countP_eq_zero.mpr fun script _ => by simp
      rw [none, Nat.add_zero]
  | cons step place ih =>
      cases compiles with
      | array kindIs selected given compiled =>
          rw [fieldAt?] at found
          split at found
          · rename_i first
            obtain ⟨part, middle, rest, there, compiles, count⟩ := ih compiled found
            refine ⟨part, middle, rest, ?_, compiles, ?_⟩
            · rw [Node.at?, if_pos first.2, there]
            · rw [scriptsOf, if_pos kindIs, first.2, countP_below, if_neg (by omega), if_pos rfl,
                count]
          · cases found
      | map compiled =>
          rw [fieldAt?, Option.bind_eq_some_iff] at found
          obtain ⟨entry, isEntry, inside⟩ := found
          obtain ⟨inner, middle, _, there, compiles, count⟩ := compiled.entry isEntry 0 place
          obtain ⟨part, before, rest, partThere, partCompiles, partCount⟩ := ih compiles inside
          refine ⟨part, before, rest, ?_, partCompiles, ?_⟩
          · rw [Node.at?, there]
            exact partThere
          · rw [partCount, count, scriptsOf, Nat.zero_add]
      | script written present => cases found
      | @static value data sources static checked =>
          cases value with
          | descriptor => cases static
          | script => cases static
          | map => cases static
          | _ => cases found
      | text kindIs => simp [fieldAt?, kindIs] at found
      | attr kindIs => simp [fieldAt?, kindIs] at found
      | html kindIs => simp [fieldAt?, kindIs] at found
      | presence kindIs => simp [fieldAt?, kindIs] at found
      | count kindIs => simp [fieldAt?, kindIs] at found

section Order

variable {scripts : List (Place × Value)}

theorem below_ascending (step : Nat) (ascending : scripts.Pairwise fun a b => a.1 < b.1) :
    (Place.below step scripts).Pairwise fun a b => a.1 < b.1 := by
  rw [Place.below, List.pairwise_map]
  refine ascending.imp fun {a b} earlier => ?_
  rw [List.cons_lt_cons_iff]
  exact Or.inr ⟨rfl, earlier⟩

mutual

theorem scriptsOf_ascending : ∀ value : Value, (scriptsOf value).Pairwise fun a b => a.1 < b.1
  | .descriptor kind _ _ _ _ item => by
      rw [scriptsOf]
      split
      · exact below_ascending 0 (scriptsOf_ascending item)
      · exact .nil
  | .script source => List.pairwise_singleton _ _
  | .map entries => scriptsFrom_ascending entries 0
  | .null => .nil
  | .bool _ => .nil
  | .int _ => .nil
  | .float _ => .nil
  | .text _ => .nil
  | .bytes _ => .nil
  | .list _ => .nil
  | .tuple _ => .nil
  | .function => .nil
  | .stranger => .nil
  | .fieldKind _ => .nil
  | .compiled .. => .nil
  | .options _ => .nil
  | .job .. => .nil

theorem scriptsFrom_ascending : ∀ (entries : List (Value × Value)) (base : Nat),
    (scriptsFrom base entries).Pairwise fun a b => a.1 < b.1
  | [], _ => .nil
  | (_, value) :: rest, base => by
      rw [scriptsFrom, List.pairwise_append]
      refine ⟨below_ascending base (scriptsOf_ascending value),
        scriptsFrom_ascending rest (base + 1), fun a here b later => ?_⟩
      obtain ⟨inner, _, rfl⟩ := List.mem_map.mp here
      obtain ⟨step, place, same, above⟩ := scriptsFrom_steps later
      rw [same, List.cons_lt_cons_iff]
      exact Or.inl above

end

end Order

/-- What an extractor stands for: the default extractor and source texts are functions. -/
def described : Value → Value
  | .null => .script (.text defaultSource)
  | .text source => .script (.text source)
  | .fieldKind kind => .script (.fieldKind kind)
  | extractor => extractor

/-- What can also be compiled alone, and then means the same. -/
def isExtractor : Value → Bool
  | .map _ => true
  | .descriptor .. => true
  | .script _ => true
  | _ => false

def isCompiled : Value → Bool
  | .compiled .. => true
  | _ => false

theorem described_of_isExtractor {part : Value} (isOne : isExtractor part = true) :
    isCompiled part = false ∧ described part = part := by
  cases part with
  | map => exact ⟨rfl, rfl⟩
  | descriptor => exact ⟨rfl, rfl⟩
  | script => exact ⟨rfl, rfl⟩
  | _ => cases isOne

theorem finish_ok_iff {compile : Compile (Node Value)} {schema : CompiledSchema Value} :
    compile.finish = .ok schema ↔
      ∃ sources, compile.run [] = .ok (schema.root, sources) ∧
        schema.callbacks = sources.mapIdx fun index source => (callbackRef index, source) := by
  unfold Compile.finish
  cases ran : compile.run [] with
  | error fault => simp [Except.map]
  | ok outcome =>
      obtain ⟨root, sources⟩ := outcome
      obtain ⟨schemaRoot, callbacks⟩ := schema
      constructor
      · intro finished
        cases finished
        exact ⟨sources, rfl, rfl⟩
      · rintro ⟨_, same, table⟩
        cases same
        obtain rfl : callbacks = _ := table
        rfl

/-- An extractor is compiled as what it stands for, and whatever cannot be one is a fault of the
schema. -/
theorem compileExtractor_cases {extractor : Value} (source : isCompiled extractor = false) :
    (isExtractor (described extractor) = true ∧
        compileExtractor extractor = (compileNode [] (described extractor)).finish) ∨
      (isExtractor (described extractor) = false ∧
        ∃ fault, compileExtractor extractor = .error fault ∧ fault.isOfType = false) := by
  cases extractor with
  | null => exact .inl ⟨rfl, rfl⟩
  | text => exact .inl ⟨rfl, rfl⟩
  | fieldKind => exact .inl ⟨rfl, rfl⟩
  | map => exact .inl ⟨rfl, rfl⟩
  | script => exact .inl ⟨rfl, rfl⟩
  | descriptor => exact .inl ⟨rfl, rfl⟩
  | compiled => cases source
  | _ => exact .inr ⟨rfl, _, rfl, rfl⟩

theorem compileExtractor_ok_iff {extractor : Value} {schema : CompiledSchema Value}
    (source : isCompiled extractor = false) :
    compileExtractor extractor = .ok schema ↔
      isExtractor (described extractor) = true ∧
        ∃ sources, Compiles (described extractor) [] schema.root sources ∧
          schema.callbacks = sources.mapIdx fun index source => (callbackRef index, source) := by
  rcases compileExtractor_cases source with ⟨isOne, same⟩ | ⟨isNone, fault, refused, -⟩
  · rw [same, finish_ok_iff]
    simp only [compileNode_run_iff, isOne, true_and]
  · simp [refused, isNone]

/-- When refs are numbered by their places, a ref tells its place. -/
theorem place_of_ref {root : Node Value} {scripts : List (Place × Value)}
    (listed : root.callbacksOf = scripts.mapIdx fun k script => (script.1, callbackRef k))
    {place other : Place} {ref : String} (here : root.at? place = some (.callback ref))
    (there : root.at? other = some (.callback ref)) : place = other := by
  rw [← Node.mem_callbacksOf, listed, List.mem_mapIdx] at here there
  obtain ⟨k, inside, same⟩ := here
  obtain ⟨l, alsoInside, alsoSame⟩ := there
  cases same
  obtain ⟨rfl, sameRef⟩ := Prod.mk.inj alsoSame
  obtain rfl := callbackRef_injective sameRef
  rfl

theorem mode_eq_mixed_iff (schema : CompiledSchema Value) :
    schema.mode = .mixed ↔ 0 < schema.callbacks.length := by
  rw [CompiledSchema.mode]
  cases schema.callbacks with
  | nil => simp
  | cons => simp

/-- A part that could be compiled alone has become the node that it becomes alone, with the refs
raised by the number of sources before it. -/
theorem Compiles.compileExtractor_alone {part : Value} {sources after : List String}
    {node : Node Value} (compiles : Compiles part sources node after)
    (isOne : isExtractor part = true) :
    ∃ alone, compileExtractor part = .ok alone ∧
      node = alone.root.mapRefs (shiftRef sources.length) := by
  have met : sources.length = ([] : List String).length + sources.length :=
    (Nat.zero_add _).symm
  obtain ⟨own, rest, alone, rfl, -⟩ := compiles.shifted met
  obtain ⟨source, same⟩ := described_of_isExtractor isOne
  refine ⟨⟨own, rest.mapIdx fun index source => (callbackRef index, source)⟩, ?_, rfl⟩
  apply (compileExtractor_ok_iff source).mpr
  rw [same]
  exact ⟨isOne, rest, alone, rfl⟩

/-- The functions of an extractor get their numbers in the order in which they are met, and the
table lists their sources under them. Whatever part of it could be compiled alone has become the
same node as there, with its numbers raised by the count of functions met before it. -/
theorem compileExtractor_callbacks {extractor : Value} {schema : CompiledSchema Value}
    (source : isCompiled extractor = false)
    (compiled : compileExtractor extractor = .ok schema) :
    let scripts := scriptsOf (described extractor)
    scripts.Pairwise (fun a b => a.1 < b.1) ∧
    schema.root.callbacksOf = scripts.mapIdx (fun k script => (script.1, callbackRef k)) ∧
    schema.callbacks =
      scripts.mapIdx (fun k script => (callbackRef k, cleanSource script.2.textOf)) ∧
    (∀ place other ref, schema.root.at? place = some (.callback ref) →
      schema.root.at? other = some (.callback ref) → place = other) ∧
    (schema.mode = .mixed ↔ 0 < scripts.length) ∧
    ∀ place part, fieldAt? place (described extractor) = some part → isExtractor part = true →
      ∃ alone, compileExtractor part = .ok alone ∧
        schema.root.at? place = some (alone.root.mapRefs
          (shiftRef (scripts.countP fun script => script.1 < place))) := by
  obtain ⟨_, sources, compiles, table⟩ := (compileExtractor_ok_iff source).mp compiled
  obtain ⟨refs, rfl⟩ := compiles.callbacks
  intro scripts
  have listed : schema.root.callbacksOf =
      scripts.mapIdx fun k script => (script.1, callbackRef k) := by
    rw [refs, numbered, List.mapIdx_eq_zipIdx_map]
    rfl
  have sourcesListed : schema.callbacks =
      scripts.mapIdx fun k script => (callbackRef k, cleanSource script.2.textOf) := by
    rw [table, List.nil_append, cleanedSources, List.mapIdx_eq_zipIdx_map,
      List.mapIdx_eq_zipIdx_map, List.zipIdx_map, List.map_map]
    rfl
  refine ⟨scriptsOf_ascending _, listed, sourcesListed, ?_, ?_, ?_⟩
  · intro place other ref here there
    exact place_of_ref listed here there
  · rw [mode_eq_mixed_iff, sourcesListed, List.length_mapIdx]
  · intro place part there isOne
    obtain ⟨node, middle, rest, found, partCompiles, count⟩ := compiles.at there
    obtain ⟨alone, compiledAlone, rfl⟩ := partCompiles.compileExtractor_alone isOne
    rw [List.length_nil, Nat.zero_add] at count
    rw [count] at found
    exact ⟨alone, compiledAlone, found⟩

/-- Two functions of one source, in an array of records and after it, and a third one. -/
theorem compileExtractor_callbacks_catalog :
    let name : Value := .script (.text "e => e.id; ")
    let shelf : Value := .map [(.text "id", name), (.text "label", Schema.text)]
    let catalog : Value := .map
      [(.text "first", .script (.text "e => 1")), (.text "shelves", array (.text ".shelf") shelf),
        (.text "own", name)]
    ∃ schema, isCompiled catalog = false ∧ compileExtractor catalog = .ok schema ∧
      schema.root.callbacksOf = [([0], "__fn_0"), ([1, 0, 0], "__fn_1"), ([2], "__fn_2")] ∧
      schema.callbacks =
        [("__fn_0", "e => 1"), ("__fn_1", "e => e.id"), ("__fn_2", "e => e.id")] ∧
      ∃ alone, compileExtractor shelf = .ok alone ∧
        schema.root.at? [1, 0] = some (alone.root.mapRefs (shiftRef 1)) := by
  intro name shelf catalog
  have compiled : ∃ schema, compileExtractor catalog = .ok schema := ⟨_, rfl⟩
  obtain ⟨schema, compiled⟩ := compiled
  obtain ⟨-, refs, table, -, -, parts⟩ := compileExtractor_callbacks rfl compiled
  refine ⟨schema, rfl, compiled, ?_, ?_, parts [1, 0] shelf rfl rfl⟩
  · rw [refs]
    decide +kernel
  · rw [table]
    decide +kernel

end Schema

end WebHarvest
