import WebHarvest.Proofs.Schema.Callbacks
import WebHarvest.Proofs.Text.Trim

/-!
# The sources of functions

What is stored for a function is the core of its source: the part that starts with the first
character that is not blank and ends with the last one that is neither blank nor a semicolon. A
source without such an end is refused. What stands behind the end of a source therefore never
matters, wherever in a schema the source stands, and a core is its own core.
-/

set_option autoImplicit false

namespace WebHarvest.Schema

theorem isTerminator_iff {c : Char} :
    isTerminator c = true ↔ c = ';' ∨ Text.isBlank c = true := by
  simp [isTerminator]

theorem isTerminator_eq_false_iff {c : Char} :
    isTerminator c = false ↔ c ≠ ';' ∧ Text.isBlank c = false := by
  simp [isTerminator]

theorem isTerminator_of_isBlank (c : Char) (blank : Text.isBlank c = true) :
    isTerminator c = true :=
  isTerminator_iff.mpr (Or.inr blank)

theorem cleanSource_eq_ofList (source : String) :
    cleanSource source =
      String.ofList (Text.trimBoth Text.isBlank (Text.trimEnd isTerminator source.toList)) := by
  rw [cleanSource, Text.dropFinalRuns_eq_trimEnd (by decide)]

theorem toList_cleanSource (source : String) :
    (cleanSource source).toList =
      Text.trimBoth Text.isBlank (Text.trimEnd isTerminator source.toList) := by
  rw [cleanSource_eq_ofList, String.toList_ofList]

/-- Nothing of a source is left exactly when it has no character but blanks and semicolons. -/
theorem cleanSource_eq_empty_iff {source : String} :
    cleanSource source = "" ↔ ∀ c ∈ source.toList, isTerminator c = true := by
  rw [← String.toList_inj, toList_cleanSource]
  exact Text.trimBoth_trimEnd_eq_nil_iff isTerminator_of_isBlank

theorem cleanSource_ne_empty_iff {source : String} :
    cleanSource source ≠ "" ↔ ∃ c ∈ source.toList, isTerminator c = false := by
  rw [ne_eq, cleanSource_eq_empty_iff]
  simp only [not_forall, exists_prop, Bool.not_eq_true]

theorem cleanSource_cleanSource (source : String) :
    cleanSource (cleanSource source) = cleanSource source := by
  rw [cleanSource_eq_ofList (cleanSource source), toList_cleanSource,
    Text.trimBoth_trimEnd_idempotent isTerminator_of_isBlank, ← cleanSource_eq_ofList]

theorem cleanSource_append (source : String) {tail : String}
    (terminators : ∀ c ∈ tail.toList, isTerminator c = true) :
    cleanSource (source ++ tail) = cleanSource source := by
  rw [cleanSource_eq_ofList, String.toList_append, Text.trimEnd_append_of_all terminators,
    ← cleanSource_eq_ofList]

/-- The part of a source from its first character that is not blank to its last one that is neither
blank nor a semicolon. -/
def IsCore (source part : String) : Prop :=
  ∃ first last,
    IsLeast (Text.positions (fun c => Text.isBlank c = false) source.toList) first ∧
    IsGreatest (Text.positions (fun c => c ≠ ';' ∧ Text.isBlank c = false) source.toList) last ∧
    part.toList = source.toList.extract first (last + 1)

theorem toList_cleanSource_eq_extract {source : String} {first last : Nat}
    (isFirst : IsLeast (Text.positions (fun c => Text.isBlank c = false) source.toList) first)
    (isLast : IsGreatest (Text.positions (fun c => c ≠ ';' ∧ Text.isBlank c = false) source.toList)
      last) :
    (cleanSource source).toList = source.toList.extract first (last + 1) := by
  simp only [← isTerminator_eq_false_iff] at isLast
  rw [toList_cleanSource]
  exact Text.trimBoth_trimEnd_eq_extract isTerminator_of_isBlank isFirst isLast

/-- Cleaning gives the core of a source, and nothing when there is no core. -/
theorem isCore_iff {source part : String} :
    IsCore source part ↔ part = cleanSource source ∧ cleanSource source ≠ "" := by
  constructor
  · rintro ⟨first, last, isFirst, isLast, same⟩
    obtain ⟨c, there, kept⟩ := isLast.1
    have cleaned := toList_cleanSource_eq_extract isFirst isLast
    refine ⟨String.toList_inj.mp (same.trans cleaned.symm), cleanSource_ne_empty_iff.mpr ?_⟩
    exact ⟨c, List.mem_of_getElem? there, isTerminator_eq_false_iff.mpr kept⟩
  · rintro ⟨rfl, present⟩
    obtain ⟨c, member, kept⟩ := cleanSource_ne_empty_iff.mp present
    have ending : ∃ c ∈ source.toList, c ≠ ';' ∧ Text.isBlank c = false :=
      ⟨c, member, isTerminator_eq_false_iff.mp kept⟩
    have starting : ∃ c ∈ source.toList, Text.isBlank c = false :=
      ending.imp fun c stays => ⟨stays.1, stays.2.2⟩
    obtain ⟨first, isFirst⟩ := Text.exists_isLeast_positions starting
    obtain ⟨last, isLast⟩ := Text.exists_isGreatest_positions ending
    exact ⟨first, last, isFirst, isLast, toList_cleanSource_eq_extract isFirst isLast⟩

theorem compileExtractor_script {source : String} (present : cleanSource source ≠ "") :
    compileExtractor (.script (.text source)) =
      .ok ⟨.callback (callbackRef 0), [(callbackRef 0, cleanSource source)]⟩ := by
  rw [compileExtractor, Compile.finish, compileScript_of_text [] [] rfl present]
  rfl

theorem compileExtractor_script_empty {source : String} (empty : cleanSource source = "") :
    compileExtractor (.script (.text source)) = .error (.emptySource []) := by
  have refused : sourceText [] (.text source) = .error (.emptySource []) := by
    rw [sourceText, Value.asText?]
    simp [empty]
  have stopped : (compileScript [] (.text source)).run [] = .error (.emptySource []) := by
    rw [compileScript, Compile.run_bind_error, Compile.run_check_error]
    exact Or.inl refused
  rw [compileExtractor, Compile.finish, stopped]
  rfl

mutual

/-- A field with other sources for its functions, each one chosen by its place. -/
def mapSources (f : Place → Value → Value) : Value → Value
  | .descriptor kind selector attrName trim default item =>
      .descriptor kind selector attrName trim default
        (if kindOf? kind = some .array then mapSources (fun place => f (0 :: place)) item else item)
  | .script source => .script (f [] source)
  | .map entries => .map (mapSourcesFrom f 0 entries)
  | value => value

def mapSourcesFrom (f : Place → Value → Value) (index : Nat) :
    List (Value × Value) → List (Value × Value)
  | [] => []
  | (key, value) :: rest =>
      (key, mapSources (fun place => f (index :: place)) value) :: mapSourcesFrom f (index + 1) rest

end

/-- Other sources, of which each comes to the same text or fault as the one it stands for. -/
def KeepsTexts (f : Place → Value → Value) : Prop :=
  ∀ place source path, sourceText path (f place source) = sourceText path source

theorem KeepsTexts.inside {f : Place → Value → Value} (keeps : KeepsTexts f) (step : Nat) :
    KeepsTexts fun place => f (step :: place) :=
  fun place => keeps (step :: place)

theorem compileScript_congr {path : Path} {source other : Value}
    (alike : sourceText path other = sourceText path source) :
    compileScript path other = compileScript path source := by
  simp only [compileScript, alike]

theorem compileNode_array {path : Path} {kind selector attrName trim default item : Value}
    (isArray : kindOf? kind = some .array) (given : item ≠ .null) :
    compileNode path (.descriptor kind selector attrName trim default item) =
      if selector.isEmpty then throw (.missingSelector path .array)
      else do return .array selector (← compileNode (path ++ [.item]) item) := by
  simp only [compileNode, isArray]
  split
  · rfl
  · split
    · contradiction
    · rfl

theorem mapSources_ne_null {f : Place → Value → Value} {value : Value} (given : value ≠ .null) :
    mapSources f value ≠ .null := by
  cases value with
  | null => contradiction
  | _ => simp [mapSources]

mutual

/-- A compilation does not tell sources apart that come to the same text. -/
theorem compileNode_mapSources {f : Place → Value → Value} (keeps : KeepsTexts f) (path : Path)
    (value : Value) : compileNode path (mapSources f value) = compileNode path value := by
  cases value with
  | descriptor kind selector attrName trim default item =>
      rw [mapSources]
      split
      · rename_i isArray
        -- No item is given by other sources, or taken away by them.
        by_cases given : item = .null
        · rw [given]
          rfl
        · rw [compileNode_array isArray given, compileNode_array isArray (mapSources_ne_null given),
            compileNode_mapSources (keeps.inside 0) _ item]
      · rfl
  | script source => exact compileScript_congr (keeps [] source path)
  | map entries =>
      rw [mapSources, compileNode, compileNode, compileFields_mapSources keeps path 0 entries]
  | _ => rfl

theorem compileFields_mapSources {f : Place → Value → Value} (keeps : KeepsTexts f) (path : Path)
    (index : Nat) (entries : List (Value × Value)) :
    compileFields path (mapSourcesFrom f index entries) = compileFields path entries := by
  cases entries with
  | nil => rw [mapSourcesFrom]
  | cons entry rest =>
      obtain ⟨key, value⟩ := entry
      cases key with
      | text key =>
          rw [mapSourcesFrom, compileFields, compileFields,
            compileNode_mapSources (keeps.inside index) _ value,
            compileFields_mapSources keeps path (index + 1) rest]
      | _ => rfl

end

theorem compileExtractor_mapSources {f : Place → Value → Value} (keeps : KeepsTexts f)
    (extractor : Value) :
    compileExtractor (mapSources f (described extractor)) = compileExtractor extractor := by
  cases extractor with
  | null => exact congrArg Compile.finish (compileScript_congr (keeps [] _ []))
  | text source => exact congrArg Compile.finish (compileScript_congr (keeps [] _ []))
  | fieldKind kind => exact congrArg Compile.finish (compileScript_congr (keeps [] _ []))
  | script source => exact congrArg Compile.finish (compileScript_congr (keeps [] _ []))
  | map entries =>
      simp only [described, mapSources, compileExtractor, compileSchema,
        compileFields_mapSources keeps]
  | descriptor kind selector attrName trim default item =>
      have same := congrArg Compile.finish (compileNode_mapSources keeps []
        (.descriptor kind selector attrName trim default item))
      rw [mapSources] at same
      exact same
  | _ => rfl

/-- A source with a text behind it. -/
def appendTail (tail : String) (source : Value) : Value :=
  match source.asText? with
  | some text => .text (text ++ tail)
  | none => source

theorem sourceText_appendTail {tail : String}
    (terminators : ∀ c ∈ tail.toList, isTerminator c = true) (path : Path) (source : Value) :
    sourceText path (appendTail tail source) = sourceText path source := by
  cases written : source.asText? with
  | none => simp only [appendTail, written]
  | some text =>
      have longer : (Value.text (text ++ tail)).asText? = some (text ++ tail) := rfl
      simp only [appendTail, sourceText, written, longer, cleanSource_append text terminators]

/-- An extractor with texts behind the sources of its functions, each one chosen by its place. -/
def appendTails (tails : Place → String) : Value → Value :=
  mapSources fun place => appendTail (tails place)

theorem compileExtractor_appendTails {tails : Place → String}
    (terminators : ∀ place, ∀ c ∈ (tails place).toList, isTerminator c = true)
    (extractor : Value) :
    compileExtractor (appendTails tails (described extractor)) = compileExtractor extractor :=
  compileExtractor_mapSources
    (fun place source path => sourceText_appendTail (terminators place) path source) extractor

theorem mem_mapIdx_callbackRef {sources : List String} {index : Nat} {stored : String} :
    (callbackRef index, stored) ∈ sources.mapIdx (fun index source => (callbackRef index, source)) ↔
      sources[index]? = some stored := by
  rw [List.mem_mapIdx, List.getElem?_eq_some_iff]
  constructor
  · rintro ⟨other, inside, same⟩
    obtain ⟨sameRef, rfl⟩ := Prod.mk.inj same
    obtain rfl := callbackRef_injective sameRef
    exact ⟨inside, rfl⟩
  · rintro ⟨inside, rfl⟩
    exact ⟨index, inside, rfl⟩

/-- At its place in the tree, a function of an extractor has the ref under which its cleaned source
is in the table. -/
theorem compileExtractor_at {extractor : Value} {schema : CompiledSchema Value} {place : Place}
    {source : String} (compiled : compileExtractor extractor = .ok schema)
    (there : fieldAt? place (described extractor) = some (.script (.text source))) :
    ∃ ref, schema.root.at? place = some (.callback ref) ∧ cleanSource source ≠ "" ∧
      ∀ stored, (ref, stored) ∈ schema.callbacks ↔ stored = cleanSource source := by
  have isSource : isCompiled extractor = false := by
    cases extractor with
    | compiled => cases place <;> simp [described, fieldAt?] at there
    | _ => rfl
  obtain ⟨-, sources, compiles, table⟩ := (compileExtractor_ok_iff isSource).mp compiled
  obtain ⟨refs, rfl⟩ := compiles.callbacks
  obtain ⟨_, _, _, _, script, _⟩ := compiles.at there
  have present : cleanSource source ≠ "" := by
    cases script with
    | script written present =>
        cases written
        exact present
    | static static => cases static
  -- The number with which the walk meets the function leads to its ref and to its source.
  obtain ⟨index, found⟩ := List.mem_iff_getElem?.mp (mem_scriptsOf.mpr there)
  refine ⟨callbackRef index, ?_, present, fun stored => ?_⟩
  · rw [← Node.mem_callbacksOf, refs, numbered]
    exact List.mem_map.mpr
      ⟨((place, .text source), index), List.mem_zipIdx_iff_getElem?.mpr found, rfl⟩
  · rw [table, mem_mapIdx_callbackRef, List.nil_append, cleanedSources, List.getElem?_map, found]
    exact Option.some_inj.trans eq_comm

/-- Of each source its core is stored, from its first character that is not blank to its last one
that is neither blank nor a semicolon, wherever in an extractor it stands. It is refused when it has
no such last character. A core that is compiled again is stored as it is, and blanks and semicolons
behind sources change nothing. -/
theorem compileExtractor_stores_core (source : String) :
    (∀ fault, compileExtractor (.script (.text source)) = .error fault ↔
      (∀ c ∈ source.toList, c = ';' ∨ Text.isBlank c = true) ∧ fault = .emptySource []) ∧
    (∀ extractor schema place, compileExtractor extractor = .ok schema →
      fieldAt? place (described extractor) = some (.script (.text source)) →
      ∃ ref core, schema.root.at? place = some (.callback ref) ∧
        (∀ stored, (ref, stored) ∈ schema.callbacks ↔ stored = core) ∧ IsCore source core ∧
        compileExtractor (.script (.text core)) =
          .ok ⟨.callback (callbackRef 0), [(callbackRef 0, core)]⟩) ∧
    cleanSource (cleanSource source) = cleanSource source ∧
    ∀ extractor tails,
      (∀ place : Place, ∀ c ∈ String.toList (tails place), c = ';' ∨ Text.isBlank c = true) →
      compileExtractor (appendTails tails (described extractor)) = compileExtractor extractor := by
  simp only [← isTerminator_iff]
  refine ⟨fun fault => ?_, fun extractor schema place compiled there => ?_,
    cleanSource_cleanSource source, fun extractor tails terminators =>
      compileExtractor_appendTails terminators extractor⟩
  · rw [← cleanSource_eq_empty_iff]
    by_cases empty : cleanSource source = ""
    · rw [compileExtractor_script_empty empty]
      simp [empty, eq_comm]
    · simp [compileExtractor_script empty, empty]
  · obtain ⟨ref, isRef, present, listed⟩ := compileExtractor_at compiled there
    have again : cleanSource (cleanSource source) ≠ "" := by rwa [cleanSource_cleanSource]
    refine ⟨ref, cleanSource source, isRef, listed, isCore_iff.mpr ⟨rfl, present⟩, ?_⟩
    rw [compileExtractor_script again, cleanSource_cleanSource]

/-- A source between odd blanks and with line ends among its terminators, in an array and after
it, then with more terminators behind it in both places, and one that has nothing else. -/
theorem compileExtractor_stores_core_spaced :
    let source := "\u2003e => e.id;\u0085;\n"
    let listing : Value := .map
      [(.text "ids", array (.text "li") (.script (.text source))),
        (.text "own", .script (.text source))]
    let tails (place : Place) : String := if place = [1] then "\n;\x1c" else ";\u3000 "
    ∃ schema, compileExtractor listing = .ok schema ∧
      fieldAt? [0, 0] (described listing) = some (.script (.text source)) ∧
      (∃ ref core, schema.root.at? [0, 0] = some (.callback ref) ∧ IsCore source core ∧
        (ref, core) ∈ schema.callbacks ∧ core = "e => e.id") ∧
      (∀ place, ∀ c ∈ (tails place).toList, c = ';' ∨ Text.isBlank c = true) ∧
      compileExtractor (appendTails tails (described listing)) = .ok schema ∧
      (∀ c ∈ " ; \n".toList, c = ';' ∨ Text.isBlank c = true) ∧
      compileExtractor (.script (.text " ; \n")) = .error (.emptySource []) := by
  intro source listing tails
  obtain ⟨-, stores, -, ignores⟩ := compileExtractor_stores_core source
  have present : cleanSource source ≠ "" := by decide +kernel
  have compiles : Compiles listing [] _ _ :=
    .map (.cons (.array rfl rfl nofun (.script rfl present)) (.cons (.script rfl present) .nil))
  have compiled : ∃ schema, compileExtractor listing = .ok schema :=
    ⟨⟨_, _⟩, (compileExtractor_ok_iff rfl).mpr ⟨rfl, _, compiles, rfl⟩⟩
  obtain ⟨schema, compiled⟩ := compiled
  have there : fieldAt? [0, 0] (described listing) = some (.script (.text source)) := rfl
  obtain ⟨ref, core, isRef, listed, isCore, -⟩ := stores listing schema [0, 0] compiled there
  have coreIs : core = "e => e.id" := (isCore_iff.mp isCore).1.trans (by decide +kernel)
  have onlyTerminators {tail : String} (all : tail.toList.all isTerminator = true) :
      ∀ c ∈ tail.toList, c = ';' ∨ Text.isBlank c = true :=
    fun c member => isTerminator_iff.mp (List.all_eq_true.mp all c member)
  have terminators : ∀ place, ∀ c ∈ (tails place).toList, c = ';' ∨ Text.isBlank c = true := by
    intro place
    refine onlyTerminators ?_
    by_cases second : place = [1]
    · simp only [tails, if_pos second]
      decide
    · simp only [tails, if_neg second]
      decide
  have nothing : ∀ c ∈ " ; \n".toList, c = ';' ∨ Text.isBlank c = true :=
    onlyTerminators (by decide)
  exact ⟨schema, compiled, there, ⟨ref, core, isRef, isCore, (listed core).mpr rfl, coreIs⟩,
    terminators, (ignores listing tails terminators).trans compiled, nothing,
    ((compileExtractor_stores_core " ; \n").1 _).mpr ⟨nothing, rfl⟩⟩

end WebHarvest.Schema
