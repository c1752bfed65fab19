import WebHarvest.Proofs.Schema.Source
import WebHarvest.Proofs.Schema.Transport

/-!
# Which schemas are accepted

A schema is well-formed or not by the form of its fields alone, whatever order they are compiled in.
Compilation accepts the well-formed schemas and no others. A schema that it refuses has sites that
are not sound: descriptors, functions, data and keys, in depth-first order of the keys. The refusal
is about the first of them and starts with its path.
-/

set_option autoImplicit false

namespace WebHarvest

namespace Schema

theorem allText_iff {entries : List (Value × Value)} :
    (entries.all fun (key, _) => key matches .text _) = true ↔
      ∀ entry ∈ entries, ∃ key, entry.1 = .text key := by
  rw [List.all_eq_true]
  refine forall₂_congr fun entry _ => ?_
  obtain ⟨key, value⟩ := entry
  cases key <;> simp

section WellFormed

/-- Data that can be sent to a page: scalars, sequences of data, and mappings from texts to data. -/
inductive IsData : Value → Prop where
  | null : IsData .null
  | bool {b : Bool} : IsData (.bool b)
  | int {n : Int} : IsData (.int n)
  | float {x : Double} : IsData (.float x)
  | text {s : String} : IsData (.text s)
  | fieldKind {kind : FieldKind} : IsData (.fieldKind kind)
  | list {items : List Value} (each : ∀ item ∈ items, IsData item) : IsData (.list items)
  | tuple {items : List Value} (each : ∀ item ∈ items, IsData item) : IsData (.tuple items)
  | map {entries : List (Value × Value)} (named : ∀ entry ∈ entries, ∃ key, entry.1 = .text key)
      (each : ∀ entry ∈ entries, IsData entry.2) : IsData (.map entries)

/-- What may stand under a key of a schema or be the item of an array. -/
inductive IsField : Value → Prop where
  | text {kind selector attrName trim default item : Value} (kindIs : kindOf? kind = some .text)
      (static : IsData default) : IsField (.descriptor kind selector attrName trim default item)
  | attr {kind selector attrName trim default item : Value} (kindIs : kindOf? kind = some .attr)
      (named : attrName.isEmpty = false) (static : IsData default) :
      IsField (.descriptor kind selector attrName trim default item)
  | html {kind selector attrName trim default item : Value} (kindIs : kindOf? kind = some .html)
      (static : IsData default) : IsField (.descriptor kind selector attrName trim default item)
  | presence {kind selector attrName trim default item : Value}
      (kindIs : kindOf? kind = some .presence) :
      IsField (.descriptor kind selector attrName trim default item)
  | count {kind selector attrName trim default item : Value} (kindIs : kindOf? kind = some .count)
      (selected : selector.isEmpty = false) :
      IsField (.descriptor kind selector attrName trim default item)
  | array {kind selector attrName trim default item : Value} (kindIs : kindOf? kind = some .array)
      (selected : selector.isEmpty = false) (given : item ≠ .null) (itemIs : IsField item) :
      IsField (.descriptor kind selector attrName trim default item)
  | script {source : Value} {text : String} (written : source.asText? = some text)
      (present : ∃ c ∈ text.toList, isTerminator c = false) : IsField (.script source)
  | map {entries : List (Value × Value)} (named : ∀ entry ∈ entries, ∃ key, entry.1 = .text key)
      (each : ∀ entry ∈ entries, IsField entry.2) : IsField (.map entries)
  | static {value : Value} (static : IsData value) : IsField value

/-- A schema is a mapping, and its keys and fields are well-formed at every depth. -/
def IsSchema (schema : Value) : Prop := (∃ entries, schema = .map entries) ∧ IsField schema

end WellFormed

section Sites

/-- What is checked at one place: a field that is no mapping, or a key that is no text. -/
inductive Site where
  | field (value : Value)
  | key (key : Value)

mutual

/-- The sites of a field in depth-first order, each with its place. Data is one site as a whole, and
so is a descriptor with its default. -/
def sites (path : Path) : Value → List (Path × Site)
  | .map entries => entrySites path entries
  | .descriptor kind selector attrName trim default item =>
      (path, .field (.descriptor kind selector attrName trim default item)) ::
        if kindOf? kind = some .array then sites (path ++ [.item]) item else []
  | value => [(path, .field value)]

def entrySites (path : Path) : List (Value × Value) → List (Path × Site)
  | [] => []
  | (.text key, value) :: rest => sites (path ++ [.key key]) value ++ entrySites path rest
  | (key, _) :: rest => (path, .key key) :: entrySites path rest

end

/-- A site without an offence of its own. The item of an array is another site. -/
def Site.IsSound : Site → Prop
  | .key _ => False
  | .field (.descriptor kind selector attrName _ default item) =>
      match kindOf? kind with
      | none => False
      | some .text => IsData default
      | some .attr => attrName.isEmpty = false ∧ IsData default
      | some .html => IsData default
      | some .presence => True
      | some .count => selector.isEmpty = false
      | some .array => selector.isEmpty = false ∧ item ≠ .null
  | .field (.script source) =>
      ∃ text, source.asText? = some text ∧ ∃ c ∈ text.toList, isTerminator c = false
  | .field value => IsData value

theorem entrySites_sound {path : Path} {entries : List (Value × Value)}
    (named : ∀ entry ∈ entries, ∃ key, entry.1 = .text key)
    (each : ∀ entry ∈ entries, ∀ path, ∀ place ∈ sites path entry.2, place.2.IsSound) :
    ∀ place ∈ entrySites path entries, place.2.IsSound := by
  induction entries with
  | nil => nofun
  | cons entry rest ih =>
      obtain ⟨firstNamed, othersNamed⟩ := List.forall_mem_cons.mp named
      obtain ⟨first, others⟩ := List.forall_mem_cons.mp each
      obtain ⟨key, value⟩ := entry
      obtain ⟨name, rfl⟩ := firstNamed
      exact List.forall_mem_append.mpr ⟨first _, ih othersNamed others⟩

theorem IsData.sites_sound {value : Value} (data : IsData value) (path : Path) :
    ∀ place ∈ sites path value, place.2.IsSound := by
  induction data generalizing path with
  | map named _ ih => exact entrySites_sound named ih
  | null => exact List.forall_mem_singleton.mpr .null
  | bool => exact List.forall_mem_singleton.mpr .bool
  | int => exact List.forall_mem_singleton.mpr .int
  | float => exact List.forall_mem_singleton.mpr .float
  | text => exact List.forall_mem_singleton.mpr .text
  | fieldKind => exact List.forall_mem_singleton.mpr .fieldKind
  | list each => exact List.forall_mem_singleton.mpr (.list each)
  | tuple each => exact List.forall_mem_singleton.mpr (.tuple each)

theorem descriptor_sound {path : Path} {kind selector attrName trim default item : Value}
    (own : Site.IsSound (.field (.descriptor kind selector attrName trim default item)))
    (inner : kindOf? kind = some .array →
      ∀ place ∈ sites (path ++ [.item]) item, place.2.IsSound) :
    ∀ place ∈ sites path (.descriptor kind selector attrName trim default item),
      place.2.IsSound := by
  rw [sites]
  refine List.forall_mem_cons.mpr ⟨own, ?_⟩
  split
  · exact inner ‹_›
  · nofun

/-- All sites of a well-formed field are sound. -/
theorem IsField.sites_sound {value : Value} (field : IsField value) (path : Path) :
    ∀ place ∈ sites path value, place.2.IsSound := by
  induction field generalizing path with
  | text kindIs static =>
      exact descriptor_sound (by simpa only [Site.IsSound, kindIs] using static)
        fun isArray => by simp [kindIs] at isArray
  | attr kindIs named static =>
      exact descriptor_sound (by simpa only [Site.IsSound, kindIs] using ⟨named, static⟩)
        fun isArray => by simp [kindIs] at isArray
  | html kindIs static =>
      exact descriptor_sound (by simpa only [Site.IsSound, kindIs] using static)
        fun isArray => by simp [kindIs] at isArray
  | presence kindIs =>
      exact descriptor_sound (by simp only [Site.IsSound, kindIs])
        fun isArray => by simp [kindIs] at isArray
  | count kindIs selected =>
      exact descriptor_sound (by simpa only [Site.IsSound, kindIs] using selected)
        fun isArray => by simp [kindIs] at isArray
  | array kindIs selected given _ ih =>
      exact descriptor_sound (by simpa only [Site.IsSound, kindIs] using ⟨selected, given⟩)
        fun _ => ih _
  | script written present => exact List.forall_mem_singleton.mpr ⟨_, written, present⟩
  | map named _ ih => exact entrySites_sound named ih
  | static static => exact static.sites_sound path

end Sites

section Accepted

mutual

theorem isData_of_checkData {path : Path} (value : Value) {data : Value}
    (checked : checkData path value = .ok data) : IsData value := by
  cases value with
  | null => exact .null
  | bool => exact .bool
  | int => exact .int
  | float => exact .float
  | text => exact .text
  | fieldKind => exact .fieldKind
  | list items =>
      obtain ⟨_, itemsChecked, -⟩ := Outcome.bind_ok_iff.mp checked
      exact .list (isData_of_checkItems items itemsChecked)
  | tuple items =>
      obtain ⟨_, itemsChecked, -⟩ := Outcome.bind_ok_iff.mp checked
      exact .tuple (isData_of_checkItems items itemsChecked)
  | map entries =>
      rw [checkData] at checked
      split at checked
      · rename_i textKeys
        obtain ⟨_, entriesChecked, -⟩ := Outcome.bind_ok_iff.mp checked
        exact .map (allText_iff.mp textKeys) (isData_of_checkEntries entries entriesChecked)
      · cases checked
  | _ => cases checked

theorem isData_of_checkItems {path : Path} (items : List Value) {data : List Value}
    (checked : checkItems path items = .ok data) : ∀ item ∈ items, IsData item := by
  cases items with
  | nil => nofun
  | cons item rest =>
      obtain ⟨_, headChecked, checked⟩ := Outcome.bind_ok_iff.mp checked
      obtain ⟨_, tailChecked, -⟩ := Outcome.bind_ok_iff.mp checked
      exact List.forall_mem_cons.mpr
        ⟨isData_of_checkData item headChecked, isData_of_checkItems rest tailChecked⟩

theorem isData_of_checkEntries {path : Path} (entries : List (Value × Value))
    {data : List (Value × Value)} (checked : checkEntries path entries = .ok data) :
    ∀ entry ∈ entries, IsData entry.2 := by
  cases entries with
  | nil => nofun
  | cons entry rest =>
      obtain ⟨key, value⟩ := entry
      obtain ⟨_, headChecked, checked⟩ := Outcome.bind_ok_iff.mp checked
      obtain ⟨_, tailChecked, -⟩ := Outcome.bind_ok_iff.mp checked
      exact List.forall_mem_cons.mpr
        ⟨isData_of_checkData value headChecked, isData_of_checkEntries rest tailChecked⟩

end

theorem checkItems_of_each {path : Path} {items : List Value}
    (each : ∀ item ∈ items, ∃ sent, checkData path item = .ok sent) :
    ∃ sent, checkItems path items = .ok sent := by
  induction items with
  | nil => exact ⟨[], rfl⟩
  | cons item rest ih =>
      obtain ⟨⟨head, headChecked⟩, others⟩ := List.forall_mem_cons.mp each
      obtain ⟨tail, tailChecked⟩ := ih others
      exact ⟨head :: tail, Outcome.bind_ok_iff.mpr
        ⟨head, headChecked, Outcome.bind_ok_iff.mpr ⟨tail, tailChecked, rfl⟩⟩⟩

theorem checkEntries_of_each {path : Path} {entries : List (Value × Value)}
    (each : ∀ entry ∈ entries, ∃ sent, checkData path entry.2 = .ok sent) :
    ∃ sent, checkEntries path entries = .ok sent := by
  induction entries with
  | nil => exact ⟨[], rfl⟩
  | cons entry rest ih =>
      obtain ⟨⟨head, headChecked⟩, others⟩ := List.forall_mem_cons.mp each
      obtain ⟨tail, tailChecked⟩ := ih others
      exact ⟨(entry.1, head) :: tail, Outcome.bind_ok_iff.mpr
        ⟨head, headChecked, Outcome.bind_ok_iff.mpr ⟨tail, tailChecked, rfl⟩⟩⟩

/-- Data is accepted at every place. -/
theorem IsData.checked {value : Value} (data : IsData value) (path : Path) :
    ∃ sent, checkData path value = .ok sent := by
  induction data with
  | list _ ih =>
      obtain ⟨sent, checked⟩ := checkItems_of_each ih
      exact ⟨.list sent, Outcome.bind_ok_iff.mpr ⟨sent, checked, rfl⟩⟩
  | tuple _ ih =>
      obtain ⟨sent, checked⟩ := checkItems_of_each ih
      exact ⟨.list sent, Outcome.bind_ok_iff.mpr ⟨sent, checked, rfl⟩⟩
  | map named _ ih =>
      obtain ⟨sent, checked⟩ := checkEntries_of_each ih
      refine ⟨.map sent, ?_⟩
      rw [checkData]
      split
      · exact Outcome.bind_ok_iff.mpr ⟨sent, checked, rfl⟩
      · rename_i otherKey
        exact absurd (allText_iff.mpr named) otherKey
  | null => exact ⟨_, rfl⟩
  | bool => exact ⟨_, rfl⟩
  | int => exact ⟨_, rfl⟩
  | float => exact ⟨_, rfl⟩
  | text => exact ⟨_, rfl⟩
  | fieldKind => exact ⟨_, rfl⟩

mutual

theorem Compiles.isField {value : Value} {sources after : List String} {node : Node Value}
    (compiles : Compiles value sources node after) : IsField value := by
  cases compiles with
  | text kindIs checked => exact .text kindIs (isData_of_checkData _ checked)
  | attr kindIs named checked => exact .attr kindIs named (isData_of_checkData _ checked)
  | html kindIs checked => exact .html kindIs (isData_of_checkData _ checked)
  | presence kindIs => exact .presence kindIs
  | count kindIs selected => exact .count kindIs selected
  | array kindIs selected given compiled => exact .array kindIs selected given compiled.isField
  | script written present => exact .script written (cleanSource_ne_empty_iff.mp present)
  | map compiled => exact .map compiled.isField.1 compiled.isField.2
  | static _ checked => exact .static (isData_of_checkData _ checked)

theorem CompilesFields.isField {entries : List (Value × Value)} {sources after : List String}
    {fields : List (String × Node Value)} (compiles : CompilesFields entries sources fields after) :
    (∀ entry ∈ entries, ∃ key, entry.1 = .text key) ∧ ∀ entry ∈ entries, IsField entry.2 := by
  cases compiles with
  | nil => exact ⟨nofun, nofun⟩
  | cons head tail =>
      exact ⟨List.forall_mem_cons.mpr ⟨⟨_, rfl⟩, tail.isField.1⟩,
        List.forall_mem_cons.mpr ⟨head.isField, tail.isField.2⟩⟩

end

end Accepted

section Refused

/-- The place that a fault of the schema names. -/
def Fault.place? : Fault → Option Path
  | .keyNotText path _ => some path
  | .hostFunction path => some path
  | .emptySource path => some path
  | .unknownKind path _ => some path
  | .missingAttribute path => some path
  | .missingSelector path _ => some path
  | .missingItem path => some path
  | .notData path _ => some path
  | _ => none

/-- A message starts with a place. -/
def Names (place message : String) : Prop := ∃ cause, message = place ++ ": " ++ cause

theorem Names.append {place message : String} (names : Names place message) (rest : String) :
    Names place (message ++ rest) := by
  obtain ⟨cause, rfl⟩ := names
  exact ⟨cause ++ rest, String.append_assoc⟩

/-- A fault is about the first site that is not sound, and if it is one of the schema it names the
place of this site. -/
def Fault.IsFirst (fault : Fault) (places : List (Path × Site)) : Prop :=
  ∃ before path site after, places = before ++ (path, site) :: after ∧
    (∀ place ∈ before, place.2.IsSound) ∧ ¬ site.IsSound ∧
    (fault.isOfType = false → fault.place? = some path)

theorem Fault.isFirst_head {fault : Fault} {path : Path} {site : Site}
    (after : List (Path × Site)) (unsound : ¬ site.IsSound)
    (placed : fault.isOfType = false → fault.place? = some path) :
    fault.IsFirst ((path, site) :: after) :=
  ⟨[], path, site, after, rfl, nofun, unsound, placed⟩

theorem Fault.IsFirst.append {fault : Fault} {places : List (Path × Site)}
    (first : fault.IsFirst places) (more : List (Path × Site)) :
    fault.IsFirst (places ++ more) := by
  obtain ⟨before, path, site, after, rfl, sound, offends⟩ := first
  exact ⟨before, path, site, after ++ more, by simp, sound, offends⟩

theorem Fault.IsFirst.behind {fault : Fault} {places front : List (Path × Site)}
    (first : fault.IsFirst places) (sound : ∀ place ∈ front, place.2.IsSound) :
    fault.IsFirst (front ++ places) := by
  obtain ⟨before, path, site, after, rfl, soundBefore, offends⟩ := first
  exact ⟨front ++ before, path, site, after, by simp,
    List.forall_mem_append.mpr ⟨sound, soundBefore⟩, offends⟩

theorem checkData_refused {path : Path} {value : Value} {fault : Fault}
    (failed : checkData path value = .error fault) :
    ¬ IsData value ∧ fault.place? = some path := by
  constructor
  · intro data
    obtain ⟨sent, accepted⟩ := data.checked path
    rw [accepted] at failed
    cases failed
  · obtain ⟨_, rfl⟩ := checkData_error value failed
    rfl

theorem sourceText_refused {path : Path} {source : Value} {fault : Fault}
    (failed : sourceText path source = .error fault) :
    ¬ Site.IsSound (.field (.script source)) ∧
      (fault.isOfType = false → fault.place? = some path) := by
  constructor
  · rintro ⟨text, written, present⟩
    have accepted : sourceText path source = .ok (cleanSource text) :=
      sourceText_ok_iff.mpr ⟨text, written, rfl, cleanSource_ne_empty_iff.mpr present⟩
    rw [accepted] at failed
    cases failed
  · intro ofSchema
    unfold sourceText at failed
    split at failed
    · simp only at failed
      split at failed
      · cases failed
        rfl
      · cases failed
    · split at failed
      · cases failed
        rfl
      · cases failed
        cases ofSchema

theorem Fault.isFirst_descriptor {fault : Fault} {path : Path}
    {kind selector attrName trim default item : Value}
    (unsound : ¬ Site.IsSound (.field (.descriptor kind selector attrName trim default item)))
    (placed : fault.place? = some path) :
    fault.IsFirst (sites path (.descriptor kind selector attrName trim default item)) := by
  rw [sites]
  exact Fault.isFirst_head _ unsound fun _ => placed

theorem Fault.isFirst_static {fault : Fault} {path : Path} {value : Value}
    (static : isStatic value = true) (bad : ¬ IsData value) (placed : fault.place? = some path) :
    fault.IsFirst (sites path value) := by
  cases value with
  | descriptor => cases static
  | script => cases static
  | map => cases static
  | _ => exact Fault.isFirst_head _ bad fun _ => placed

theorem entrySites_append (path : Path) (before after : List (Value × Value)) :
    entrySites path (before ++ after) = entrySites path before ++ entrySites path after := by
  induction before with
  | nil => rfl
  | cons entry before ih =>
      obtain ⟨key, value⟩ := entry
      cases key <;> simp [entrySites, ih]

theorem CompilesFields.sites_sound {before : List (Value × Value)} {sources after : List String}
    {fields : List (String × Node Value)} (compiles : CompilesFields before sources fields after)
    (path : Path) : ∀ place ∈ entrySites path before, place.2.IsSound :=
  entrySites_sound compiles.isField.1 fun entry member =>
    (compiles.isField.2 entry member).sites_sound

/-- A field that is refused is refused for the first of its sites that is not sound. -/
theorem Refuses.isFirst {path : Path} {value : Value} {sources : List String} {fault : Fault}
    (refuses : Refuses path value sources fault) : fault.IsFirst (sites path value) := by
  induction refuses with
  | unknown kindIs => exact Fault.isFirst_descriptor (by simp [Site.IsSound, kindIs]) rfl
  | text kindIs failed =>
      obtain ⟨bad, placed⟩ := checkData_refused failed
      exact Fault.isFirst_descriptor (by simpa [Site.IsSound, kindIs] using bad) placed
  | attr kindIs failed =>
      obtain ⟨bad, placed⟩ := checkData_refused failed
      exact Fault.isFirst_descriptor (by simp [Site.IsSound, kindIs, bad]) placed
  | html kindIs failed =>
      obtain ⟨bad, placed⟩ := checkData_refused failed
      exact Fault.isFirst_descriptor (by simpa [Site.IsSound, kindIs] using bad) placed
  | unnamed kindIs empty =>
      exact Fault.isFirst_descriptor (by simp [Site.IsSound, kindIs, empty]) rfl
  | uncounted kindIs empty =>
      exact Fault.isFirst_descriptor (by simp [Site.IsSound, kindIs, empty]) rfl
  | unselected kindIs empty =>
      exact Fault.isFirst_descriptor (by simp [Site.IsSound, kindIs, empty]) rfl
  | itemless kindIs => exact Fault.isFirst_descriptor (by simp [Site.IsSound, kindIs]) rfl
  | item kindIs selected given _ ih =>
      rw [sites, if_pos kindIs]
      refine ih.behind (List.forall_mem_singleton.mpr ?_)
      simp only [Site.IsSound, kindIs]
      exact ⟨selected, given⟩
  | script failed =>
      obtain ⟨bad, placed⟩ := sourceText_refused failed
      exact Fault.isFirst_head _ bad placed
  | @key path before after key value fields sources middle compiled noText =>
      rw [sites, entrySites_append]
      refine Fault.IsFirst.behind ?_ (compiled.sites_sound path)
      cases key with
      | text name => exact absurd rfl (noText name)
      | _ => exact Fault.isFirst_head _ id fun _ => rfl
  | entry compiled _ ih =>
      rw [sites, entrySites_append, entrySites]
      exact (ih.append _).behind (compiled.sites_sound _)
  | function => exact Fault.isFirst_head _ nofun fun _ => rfl
  | static static failed =>
      obtain ⟨bad, placed⟩ := checkData_refused failed
      exact Fault.isFirst_static static bad placed

end Refused

section Schemas

variable {schema : Value} {entries : List (Value × Value)} {fault : Fault}

theorem compileSchema_map :
    compileSchema (.map entries) = (compileNode [] (.map entries)).finish := rfl

theorem isFirst_of_compileSchema (refused : compileSchema (.map entries) = .error fault) :
    fault.IsFirst (sites [] (.map entries)) := by
  rw [compileSchema_map] at refused
  exact (refuses_of_compileNode _ (finish_error refused)).isFirst

theorem IsSchema.accepted (isSchema : IsSchema schema) :
    ∃ compiled, compileSchema schema = .ok compiled := by
  obtain ⟨⟨entries, rfl⟩, field⟩ := isSchema
  cases outcome : compileSchema (.map entries) with
  | ok compiled => exact ⟨compiled, rfl⟩
  | error fault =>
      obtain ⟨before, path, site, after, split, -, unsound, -⟩ := isFirst_of_compileSchema outcome
      have member : (path, site) ∈ sites [] (.map entries) := by
        rw [split]
        exact List.mem_append_right _ List.mem_cons_self
      exact absurd (field.sites_sound [] _ member) unsound

end Schemas

end Schema

end WebHarvest
