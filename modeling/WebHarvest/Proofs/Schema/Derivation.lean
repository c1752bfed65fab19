import WebHarvest.Proofs.Outcome
import WebHarvest.Proofs.Schema.Compile

/-!
# Derivations of compilations

A compilation succeeds exactly when it has a derivation, with one rule for each kind of field. Where
a field stands matters for messages only, so derivations do not mention places. A compilation that
fails has a derivation of its fault, with one rule for each offence, and there the place counts.
-/

set_option autoImplicit false

namespace WebHarvest.Schema

section Places

variable {path : Path} (other : Path)

mutual

theorem checkData_elsewhere (value : Value) {data : Value}
    (checked : checkData path value = .ok data) : checkData other value = .ok data := by
  cases value with
  | list items =>
      obtain ⟨sent, itemsChecked, same⟩ := Outcome.bind_ok_iff.mp checked
      exact Outcome.bind_ok_iff.mpr ⟨sent, checkItems_elsewhere items itemsChecked, same⟩
  | tuple items =>
      obtain ⟨sent, itemsChecked, same⟩ := Outcome.bind_ok_iff.mp checked
      exact Outcome.bind_ok_iff.mpr ⟨sent, checkItems_elsewhere items itemsChecked, same⟩
  | map entries =>
      rw [checkData] at checked ⊢
      split at checked
      · rename_i textKeys
        obtain ⟨sent, entriesChecked, same⟩ := Outcome.bind_ok_iff.mp checked
        rw [if_pos textKeys]
        exact Outcome.bind_ok_iff.mpr ⟨sent, checkEntries_elsewhere entries entriesChecked, same⟩
      · cases checked
  | null => exact checked
  | bool b => exact checked
  | int n => exact checked
  | float x => exact checked
  | text s => exact checked
  | fieldKind kind => exact checked
  | _ => cases checked

theorem checkItems_elsewhere (items : List Value) {data : List Value}
    (checked : checkItems path items = .ok data) : checkItems other items = .ok data := by
  cases items with
  | nil => exact checked
  | cons item rest =>
      obtain ⟨head, headChecked, checked⟩ := Outcome.bind_ok_iff.mp checked
      obtain ⟨tail, tailChecked, same⟩ := Outcome.bind_ok_iff.mp checked
      exact Outcome.bind_ok_iff.mpr ⟨head, checkData_elsewhere item headChecked,
        Outcome.bind_ok_iff.mpr ⟨tail, checkItems_elsewhere rest tailChecked, same⟩⟩

theorem checkEntries_elsewhere (entries : List (Value × Value)) {data : List (Value × Value)}
    (checked : checkEntries path entries = .ok data) :
    checkEntries other entries = .ok data := by
  cases entries with
  | nil => exact checked
  | cons entry rest =>
      obtain ⟨key, value⟩ := entry
      obtain ⟨head, headChecked, checked⟩ := Outcome.bind_ok_iff.mp checked
      obtain ⟨tail, tailChecked, same⟩ := Outcome.bind_ok_iff.mp checked
      exact Outcome.bind_ok_iff.mpr ⟨head, checkData_elsewhere value headChecked,
        Outcome.bind_ok_iff.mpr ⟨tail, checkEntries_elsewhere rest tailChecked, same⟩⟩

end

end Places

/-- The source of a function has to be a text of which something is left when it is cleaned. -/
theorem sourceText_ok_iff {path : Path} {source : Value} {cleaned : String} :
    sourceText path source = .ok cleaned ↔
      ∃ text, source.asText? = some text ∧ cleanSource text = cleaned ∧ cleaned ≠ "" := by
  unfold sourceText
  cases source.asText? with
  | none => simp
  | some text =>
      by_cases empty : cleanSource text = ""
      · simp [empty]
      · simp [empty]
        rintro rfl
        exact empty

/-- What stands for itself when it is the field of a record. -/
def isStatic : Value → Bool
  | .descriptor .. => false
  | .script _ => false
  | .map _ => false
  | .function => false
  | _ => true

mutual

/-- A field becomes a node, and the sources of its functions are added to the table. -/
inductive Compiles : Value → List String → Node Value → List String → Prop where
  | text {kind selector attrName trim default item data : Value} {sources : List String}
      (kindIs : kindOf? kind = some .text) (checked : checkData [] default = .ok data) :
      Compiles (.descriptor kind selector attrName trim default item) sources
        (.text selector trim data) sources
  | attr {kind selector attrName trim default item data : Value} {sources : List String}
      (kindIs : kindOf? kind = some .attr) (named : attrName.isEmpty = false)
      (checked : checkData [] default = .ok data) :
      Compiles (.descriptor kind selector attrName trim default item) sources
        (.attr selector attrName data) sources
  | html {kind selector attrName trim default item data : Value} {sources : List String}
      (kindIs : kindOf? kind = some .html) (checked : checkData [] default = .ok data) :
      Compiles (.descriptor kind selector attrName trim default item) sources
        (.html selector data) sources
  | presence {kind selector attrName trim default item : Value} {sources : List String}
      (kindIs : kindOf? kind = some .presence) :
      Compiles (.descriptor kind selector attrName trim default item) sources
        (.presence selector) sources
  | count {kind selector attrName trim default item : Value} {sources : List String}
      (kindIs : kindOf? kind = some .count) (selected : selector.isEmpty = false) :
      Compiles (.descriptor kind selector attrName trim default item) sources
        (.count selector) sources
  | array {kind selector attrName trim default item : Value} {sources after : List String}
      {node : Node Value} (kindIs : kindOf? kind = some .array)
      (selected : selector.isEmpty = false) (given : item ≠ .null)
      (compiled : Compiles item sources node after) :
      Compiles (.descriptor kind selector attrName trim default item) sources
        (.array selector node) after
  | script {source : Value} {text : String} {sources : List String}
      (written : source.asText? = some text) (present : cleanSource text ≠ "") :
      Compiles (.script source) sources (.callback (callbackRef sources.length))
        (sources ++ [cleanSource text])
  | map {entries : List (Value × Value)} {fields : List (String × Node Value)}
      {sources after : List String} (compiled : CompilesFields entries sources fields after) :
      Compiles (.map entries) sources (.object fields) after
  | static {value data : Value} {sources : List String} (static : isStatic value = true)
      (checked : checkData [] value = .ok data) :
      Compiles value sources (.value data) sources

/-- The fields of a record are compiled in their order. -/
inductive CompilesFields :
    List (Value × Value) → List String → List (String × Node Value) → List String → Prop where
  | nil {sources : List String} : CompilesFields [] sources [] sources
  | cons {key : String} {value : Value} {node : Node Value} {entries : List (Value × Value)}
      {fields : List (String × Node Value)} {sources middle after : List String}
      (head : Compiles value sources node middle)
      (tail : CompilesFields entries middle fields after) :
      CompilesFields ((.text key, value) :: entries) sources ((key, node) :: fields) after

end

theorem compileData_ok {path : Path} {value : Value} {build : Value → Node Value}
    {sources after : List String} {node : Node Value}
    (compiled : StateT.run (do return build (← checkData path value) : Compile (Node Value))
      sources = .ok (node, after)) :
    ∃ data, checkData path value = .ok data ∧ build data = node ∧ sources = after := by
  simp only [Compile.run_bind_ok, Compile.run_check_ok, Compile.run_pure_ok] at compiled
  obtain ⟨data, _, ⟨checked, rfl⟩, same⟩ := compiled
  cases same
  exact ⟨data, checked, rfl, rfl⟩

theorem compiles_of_static {path : Path} {value : Value} {sources after : List String}
    {node : Node Value} (static : isStatic value = true)
    (compiled : StateT.run (do return .value (← checkData path value) : Compile (Node Value))
      sources = .ok (node, after)) :
    Compiles value sources node after := by
  obtain ⟨data, checked, rfl, rfl⟩ := compileData_ok compiled
  exact .static static (checkData_elsewhere [] value checked)

theorem compiles_of_compileScript {path : Path} {source : Value} {sources after : List String}
    {node : Node Value} (compiled : (compileScript path source).run sources = .ok (node, after)) :
    Compiles (.script source) sources node after := by
  unfold compileScript at compiled
  simp only [Compile.run_bind_ok, Compile.run_check_ok, Compile.run_pure_ok] at compiled
  obtain ⟨cleaned, _, ⟨checked, rfl⟩, _, _, read, _, _, wrote, same⟩ := compiled
  cases read
  cases wrote
  cases same
  obtain ⟨text, written, rfl, present⟩ := sourceText_ok_iff.mp checked
  exact .script written present

theorem compileScript_of_text (path : Path) {source : Value} {text : String}
    (sources : List String) (written : source.asText? = some text)
    (present : cleanSource text ≠ "") :
    (compileScript path source).run sources =
      .ok (.callback (callbackRef sources.length), sources ++ [cleanSource text]) := by
  have checked : sourceText path source = .ok (cleanSource text) :=
    sourceText_ok_iff.mpr ⟨text, written, rfl, present⟩
  unfold compileScript
  simp only [Compile.run_bind_ok, Compile.run_check_ok, Compile.run_pure_ok]
  exact ⟨_, _, ⟨checked, rfl⟩, _, _, rfl, _, _, rfl, rfl⟩

mutual

theorem compiles_of_compileNode {path : Path} (value : Value) {sources after : List String}
    {node : Node Value} (compiled : (compileNode path value).run sources = .ok (node, after)) :
    Compiles value sources node after := by
  cases value with
  | descriptor kind selector attrName trim default item =>
      cases kindIs : kindOf? kind with
      | none =>
          simp only [compileNode, kindIs] at compiled
          exact absurd compiled (Compile.run_throw_ok _)
      | some fieldKind =>
          cases fieldKind with
          | text =>
              simp only [compileNode, kindIs] at compiled
              obtain ⟨data, checked, rfl, rfl⟩ := compileData_ok compiled
              exact .text kindIs (checkData_elsewhere [] default checked)
          | attr =>
              cases named : attrName.isEmpty with
              | true =>
                  simp only [compileNode, kindIs, named, if_true] at compiled
                  exact absurd compiled (Compile.run_throw_ok _)
              | false =>
                  simp only [compileNode, kindIs, named, Bool.false_eq_true, if_false] at compiled
                  obtain ⟨data, checked, rfl, rfl⟩ := compileData_ok compiled
                  exact .attr kindIs named (checkData_elsewhere [] default checked)
          | html =>
              simp only [compileNode, kindIs] at compiled
              obtain ⟨data, checked, rfl, rfl⟩ := compileData_ok compiled
              exact .html kindIs (checkData_elsewhere [] default checked)
          | presence =>
              simp only [compileNode, kindIs, Compile.run_pure_ok] at compiled
              cases compiled
              exact .presence kindIs
          | count =>
              cases selected : selector.isEmpty with
              | true =>
                  simp only [compileNode, kindIs, selected, if_true] at compiled
                  exact absurd compiled (Compile.run_throw_ok _)
              | false =>
                  simp only [compileNode, kindIs, selected, Bool.false_eq_true, if_false,
                    Compile.run_pure_ok] at compiled
                  cases compiled
                  exact .count kindIs selected
          | array =>
              cases selected : selector.isEmpty with
              | true =>
                  simp only [compileNode, kindIs, selected, if_true] at compiled
                  exact absurd compiled (Compile.run_throw_ok _)
              | false =>
                  simp only [compileNode, kindIs, selected, Bool.false_eq_true, if_false]
                    at compiled
                  split at compiled
                  · exact absurd compiled (Compile.run_throw_ok _)
                  · rename_i given
                    simp only [Bool.false_eq_true, if_false, Compile.run_bind_ok,
                      Compile.run_pure_ok] at compiled
                    obtain ⟨itemNode, _, itemCompiled, same⟩ := compiled
                    cases same
                    exact .array kindIs selected given (compiles_of_compileNode item itemCompiled)
  | script source => exact compiles_of_compileScript compiled
  | map entries =>
      simp only [compileNode, Compile.run_bind_ok, Compile.run_pure_ok] at compiled
      obtain ⟨fields, _, fieldsCompiled, same⟩ := compiled
      cases same
      exact .map (compiles_of_compileFields entries fieldsCompiled)
  | function => cases compiled
  | _ => exact compiles_of_static rfl compiled

theorem compiles_of_compileFields {path : Path} (entries : List (Value × Value))
    {sources after : List String} {fields : List (String × Node Value)}
    (compiled : (compileFields path entries).run sources = .ok (fields, after)) :
    CompilesFields entries sources fields after := by
  cases entries with
  | nil =>
      cases compiled
      exact .nil
  | cons entry rest =>
      obtain ⟨key, value⟩ := entry
      cases key with
      | text key =>
          simp only [compileFields, Compile.run_bind_ok, Compile.run_pure_ok] at compiled
          obtain ⟨node, middle, head, nodes, _, tail, same⟩ := compiled
          cases same
          exact .cons (compiles_of_compileNode value head) (compiles_of_compileFields rest tail)
      | _ => cases compiled

end

mutual

theorem compileNode_of_compiles (path : Path) {value : Value} {sources after : List String}
    {node : Node Value} (compiles : Compiles value sources node after) :
    (compileNode path value).run sources = .ok (node, after) := by
  cases compiles with
  | text kindIs checked =>
      simp only [compileNode, kindIs, Compile.run_bind_ok, Compile.run_check_ok,
        Compile.run_pure_ok]
      exact ⟨_, _, ⟨checkData_elsewhere path _ checked, rfl⟩, rfl⟩
  | attr kindIs named checked =>
      simp only [compileNode, kindIs, named, Bool.false_eq_true, if_false, Compile.run_bind_ok,
        Compile.run_check_ok, Compile.run_pure_ok]
      exact ⟨_, _, ⟨checkData_elsewhere path _ checked, rfl⟩, rfl⟩
  | html kindIs checked =>
      simp only [compileNode, kindIs, Compile.run_bind_ok, Compile.run_check_ok,
        Compile.run_pure_ok]
      exact ⟨_, _, ⟨checkData_elsewhere path _ checked, rfl⟩, rfl⟩
  | presence kindIs =>
      simp only [compileNode, kindIs, Compile.run_pure_ok]
  | count kindIs selected =>
      simp only [compileNode, kindIs, selected, Bool.false_eq_true, if_false, Compile.run_pure_ok]
  | array kindIs selected given compiled =>
      simp only [compileNode, kindIs, selected, Bool.false_eq_true, if_false, Compile.run_bind_ok,
        Compile.run_pure_ok]
      exact ⟨_, _, compileNode_of_compiles _ compiled, rfl⟩
  | script written present =>
      exact compileScript_of_text path _ written present
  | map compiled =>
      simp only [compileNode, Compile.run_bind_ok, Compile.run_pure_ok]
      exact ⟨_, _, compileFields_of_compiles path compiled, rfl⟩
  | static static checked =>
      have sent := checkData_elsewhere path _ checked
      cases value with
      | descriptor => cases static
      | script => cases static
      | map => cases static
      | function => cases static
      | _ =>
        simp only [compileNode, Compile.run_bind_ok, Compile.run_check_ok, Compile.run_pure_ok]
        exact ⟨_, _, ⟨sent, rfl⟩, rfl⟩

theorem compileFields_of_compiles (path : Path) {entries : List (Value × Value)}
    {sources after : List String} {fields : List (String × Node Value)}
    (compiles : CompilesFields entries sources fields after) :
    (compileFields path entries).run sources = .ok (fields, after) := by
  cases compiles with
  | nil => rfl
  | cons head tail =>
      simp only [compileFields, Compile.run_bind_ok, Compile.run_pure_ok]
      exact ⟨_, _, compileNode_of_compiles _ head, _, _, compileFields_of_compiles path tail, rfl⟩

end

/-- A compilation of a field succeeds at any place, with the result that its derivation has. -/
theorem compileNode_run_iff {path : Path} {value : Value} {sources after : List String}
    {node : Node Value} :
    (compileNode path value).run sources = .ok (node, after) ↔ Compiles value sources node after :=
  ⟨compiles_of_compileNode value, compileNode_of_compiles path⟩

section Refusals

mutual

/-- Data is refused as no data, at the place of the whole. -/
theorem checkData_error {path : Path} (value : Value) {fault : Fault}
    (failed : checkData path value = .error fault) : ∃ part, fault = .notData path part := by
  cases value with
  | list items =>
      rcases Outcome.bind_error_iff.mp failed with failed | ⟨_, _, failed⟩
      · exact checkItems_error items failed
      · cases failed
  | tuple items =>
      rcases Outcome.bind_error_iff.mp failed with failed | ⟨_, _, failed⟩
      · exact checkItems_error items failed
      · cases failed
  | map entries =>
      rw [checkData] at failed
      split at failed
      · rcases Outcome.bind_error_iff.mp failed with failed | ⟨_, _, failed⟩
        · exact checkEntries_error entries failed
        · cases failed
      · cases failed
        exact ⟨_, rfl⟩
  | _ =>
      cases failed
      try exact ⟨_, rfl⟩

theorem checkItems_error {path : Path} (items : List Value) {fault : Fault}
    (failed : checkItems path items = .error fault) : ∃ part, fault = .notData path part := by
  cases items with
  | nil => cases failed
  | cons item rest =>
      rcases Outcome.bind_error_iff.mp failed with failed | ⟨_, _, failed⟩
      · exact checkData_error item failed
      rcases Outcome.bind_error_iff.mp failed with failed | ⟨_, _, failed⟩
      · exact checkItems_error rest failed
      · cases failed

theorem checkEntries_error {path : Path} (entries : List (Value × Value)) {fault : Fault}
    (failed : checkEntries path entries = .error fault) :
    ∃ part, fault = .notData path part := by
  cases entries with
  | nil => cases failed
  | cons entry rest =>
      obtain ⟨key, value⟩ := entry
      rcases Outcome.bind_error_iff.mp failed with failed | ⟨_, _, failed⟩
      · exact checkData_error value failed
      rcases Outcome.bind_error_iff.mp failed with failed | ⟨_, _, failed⟩
      · exact checkEntries_error rest failed
      · cases failed

end

/-- A field is refused with a fault. A record is refused for its first key or field that is. -/
inductive Refuses : Path → Value → List String → Fault → Prop where
  | unknown {path : Path} {kind selector attrName trim default item : Value}
      {sources : List String} (kindIs : kindOf? kind = none) :
      Refuses path (.descriptor kind selector attrName trim default item) sources
        (.unknownKind path kind)
  | text {path : Path} {kind selector attrName trim default item : Value} {sources : List String}
      {fault : Fault} (kindIs : kindOf? kind = some .text)
      (failed : checkData path default = .error fault) :
      Refuses path (.descriptor kind selector attrName trim default item) sources fault
  | attr {path : Path} {kind selector attrName trim default item : Value} {sources : List String}
      {fault : Fault} (kindIs : kindOf? kind = some .attr)
      (failed : checkData path default = .error fault) :
      Refuses path (.descriptor kind selector attrName trim default item) sources fault
  | html {path : Path} {kind selector attrName trim default item : Value} {sources : List String}
      {fault : Fault} (kindIs : kindOf? kind = some .html)
      (failed : checkData path default = .error fault) :
      Refuses path (.descriptor kind selector attrName trim default item) sources fault
  | unnamed {path : Path} {kind selector attrName trim default item : Value}
      {sources : List String} (kindIs : kindOf? kind = some .attr)
      (empty : attrName.isEmpty = true) :
      Refuses path (.descriptor kind selector attrName trim default item) sources
        (.missingAttribute path)
  | uncounted {path : Path} {kind selector attrName trim default item : Value}
      {sources : List String} (kindIs : kindOf? kind = some .count)
      (empty : selector.isEmpty = true) :
      Refuses path (.descriptor kind selector attrName trim default item) sources
        (.missingSelector path .count)
  | unselected {path : Path} {kind selector attrName trim default item : Value}
      {sources : List String} (kindIs : kindOf? kind = some .array)
      (empty : selector.isEmpty = true) :
      Refuses path (.descriptor kind selector attrName trim default item) sources
        (.missingSelector path .array)
  | itemless {path : Path} {kind selector attrName trim default : Value} {sources : List String}
      (kindIs : kindOf? kind = some .array) :
      Refuses path (.descriptor kind selector attrName trim default .null) sources
        (.missingItem path)
  | item {path : Path} {kind selector attrName trim default item : Value} {sources : List String}
      {fault : Fault} (kindIs : kindOf? kind = some .array) (selected : selector.isEmpty = false)
      (given : item ≠ .null) (refused : Refuses (path ++ [.item]) item sources fault) :
      Refuses path (.descriptor kind selector attrName trim default item) sources fault
  | script {path : Path} {source : Value} {sources : List String} {fault : Fault}
      (failed : sourceText path source = .error fault) :
      Refuses path (.script source) sources fault
  | key {path : Path} {before after : List (Value × Value)} {key value : Value}
      {fields : List (String × Node Value)} {sources middle : List String}
      (compiled : CompilesFields before sources fields middle)
      (noText : ∀ name, key ≠ .text name) :
      Refuses path (.map (before ++ (key, value) :: after)) sources (.keyNotText path key)
  | entry {path : Path} {before after : List (Value × Value)} {key : String} {value : Value}
      {fields : List (String × Node Value)} {sources middle : List String} {fault : Fault}
      (compiled : CompilesFields before sources fields middle)
      (refused : Refuses (path ++ [.key key]) value middle fault) :
      Refuses path (.map (before ++ (.text key, value) :: after)) sources fault
  | function {path : Path} {sources : List String} :
      Refuses path .function sources (.hostFunction path)
  | static {path : Path} {value : Value} {sources : List String} {fault : Fault}
      (static : isStatic value = true) (failed : checkData path value = .error fault) :
      Refuses path value sources fault

theorem CompilesFields.snoc {before : List (Value × Value)} {sources middle after : List String}
    {fields : List (String × Node Value)} {key : String} {value : Value} {node : Node Value}
    (compiled : CompilesFields before sources fields middle)
    (last : Compiles value middle node after) :
    CompilesFields (before ++ [(.text key, value)]) sources (fields ++ [(key, node)]) after := by
  induction before generalizing sources fields with
  | nil =>
      cases compiled
      exact .cons last .nil
  | cons entry before ih =>
      cases compiled with
      | cons head tail => exact .cons head (ih tail)

theorem compileData_error {path : Path} {value : Value} {build : Value → Node Value}
    {sources : List String} {fault : Fault}
    (failed : StateT.run (do return build (← checkData path value) : Compile (Node Value))
      sources = .error fault) : checkData path value = .error fault := by
  simpa only [Compile.run_bind_error, Compile.run_check_error, Compile.run_pure_error, and_false,
    exists_false, or_false] using failed

theorem compileScript_error {path : Path} {source : Value} {sources : List String} {fault : Fault}
    (failed : (compileScript path source).run sources = .error fault) :
    sourceText path source = .error fault := by
  unfold compileScript at failed
  cases checked : sourceText path source with
  | error refusal =>
      rw [checked] at failed
      cases failed
      rfl
  | ok cleaned =>
      rw [checked] at failed
      cases failed

mutual

theorem refuses_of_compileNode {path : Path} (value : Value) {sources : List String}
    {fault : Fault} (failed : (compileNode path value).run sources = .error fault) :
    Refuses path value sources fault := by
  cases value with
  | descriptor kind selector attrName trim default item =>
      cases kindIs : kindOf? kind with
      | none =>
          simp only [compileNode, kindIs, Compile.run_throw_error] at failed
          exact failed ▸ .unknown kindIs
      | some fieldKind =>
          cases fieldKind with
          | text =>
              simp only [compileNode, kindIs] at failed
              exact .text kindIs (compileData_error failed)
          | attr =>
              simp only [compileNode, kindIs] at failed
              split at failed
              · rename_i empty
                exact Compile.run_throw_error _ |>.mp failed ▸ .unnamed kindIs empty
              · exact .attr kindIs (compileData_error failed)
          | html =>
              simp only [compileNode, kindIs] at failed
              exact .html kindIs (compileData_error failed)
          | presence =>
              simp only [compileNode, kindIs, Compile.run_pure_error] at failed
          | count =>
              simp only [compileNode, kindIs] at failed
              split at failed
              · rename_i empty
                exact Compile.run_throw_error _ |>.mp failed ▸ .uncounted kindIs empty
              · cases failed
          | array =>
              simp only [compileNode, kindIs] at failed
              split at failed
              · rename_i empty
                exact Compile.run_throw_error _ |>.mp failed ▸ .unselected kindIs empty
              rename_i selected
              split at failed
              · exact Compile.run_throw_error _ |>.mp failed ▸ .itemless kindIs
              rename_i given
              simp only [Bool.false_eq_true, if_false, Compile.run_bind_error,
                Compile.run_pure_error, and_false, exists_false, or_false] at failed
              exact .item kindIs (Bool.eq_false_iff.mpr selected) given
                (refuses_of_compileNode item failed)
  | script source => exact .script (compileScript_error failed)
  | map entries =>
      simp only [compileNode, Compile.run_bind_error, Compile.run_pure_error, and_false,
        exists_false, or_false] at failed
      exact refuses_of_compileFields entries .nil failed
  | function =>
      cases failed
      exact .function
  | _ => exact .static rfl (compileData_error failed)

theorem refuses_of_compileFields {path : Path} (entries : List (Value × Value))
    {before : List (Value × Value)} {fields : List (String × Node Value)}
    {sources middle : List String} {fault : Fault}
    (compiled : CompilesFields before sources fields middle)
    (failed : (compileFields path entries).run middle = .error fault) :
    Refuses path (.map (before ++ entries)) sources fault := by
  cases entries with
  | nil => cases failed
  | cons entry rest =>
      obtain ⟨key, value⟩ := entry
      cases key with
      | text key =>
          simp only [compileFields, Compile.run_bind_error, Compile.run_pure_error, and_false,
            exists_false, or_false] at failed
          rcases failed with failed | ⟨node, next, accepted, failed⟩
          · exact .entry compiled (refuses_of_compileNode value failed)
          · rw [List.append_cons]
            exact refuses_of_compileFields rest
              (compiled.snoc (compiles_of_compileNode value accepted)) failed
      | _ =>
          cases failed
          exact .key compiled nofun

end

theorem finish_error {compile : Compile (Node Value)} {fault : Fault}
    (failed : compile.finish = .error fault) : compile.run [] = .error fault := by
  unfold Compile.finish at failed
  cases ran : compile.run [] with
  | error refusal =>
      rw [ran] at failed
      cases failed
      rfl
  | ok outcome =>
      rw [ran] at failed
      cases failed

end Refusals

end WebHarvest.Schema
