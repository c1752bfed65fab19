import WebHarvest.Page.Interpret
import WebHarvest.Proofs.Outcome
import WebHarvest.Proofs.Page.Payload
import WebHarvest.Proofs.Schema.Derivation
import WebHarvest.Proofs.Schema.Meaning
import WebHarvest.Schema.Field

/-!
# Extraction computes the meaning of a schema

Running the payload of a compiled schema never fails, and gives for each element, in their order,
what the schema means for it. The proof goes through the node tree: compiling keeps the meaning of
every field, and a record defines its keys one after another.
-/

set_option autoImplicit false

namespace WebHarvest

namespace Datum

theorem contents_eq_map (items : List Datum) : contents items = items.map content := by
  induction items with
  | nil => rfl
  | cons item rest ih => simp only [contents, List.map_cons, ih]

theorem fieldContents_append (front back : List (String × Datum)) (name : String) :
    fieldContents (front ++ back) name =
      (fieldContents back name).or (fieldContents front name) := by
  induction front with
  | nil => simp [fieldContents]
  | cons field rest ih =>
      obtain ⟨key, datum⟩ := field
      simp only [List.cons_append, fieldContents, ih, Option.or_assoc]

theorem fieldContents_isSome (fields : List (String × Datum)) (name : String) :
    (fieldContents fields name).isSome = fields.any (·.1 == name) := by
  induction fields with
  | nil => rfl
  | cons field rest ih =>
      obtain ⟨key, datum⟩ := field
      rw [fieldContents, Option.isSome_or, ih, List.any_cons, Bool.or_comm]
      by_cases asked : name = key
      · simp [asked]
      · simp [asked, Ne.symm asked]

theorem fieldContents_replace (fields : List (String × Datum)) (key : String) (datum : Datum)
    (name : String) :
    fieldContents (fields.map fun (k, d) => if k == key then (k, datum) else (k, d)) name =
      if name = key then (fieldContents fields name).map fun _ => datum.content
      else fieldContents fields name := by
  induction fields with
  | nil => simp [fieldContents]
  | cons field rest ih =>
      obtain ⟨k, d⟩ := field
      by_cases here : k = key
      · subst here
        simp only [List.map_cons, beq_self_eq_true, if_true, fieldContents, ih]
        by_cases asked : name = k
        · simp only [if_pos asked, Option.map_or, Option.map_some]
        · simp only [if_neg asked]
      · have keep : (k == key) = false := by simpa using here
        simp only [List.map_cons, keep, Bool.false_eq_true, if_false, fieldContents, ih]
        by_cases asked : name = key
        · subst asked
          simp [Ne.symm here]
        · simp only [if_neg asked]

theorem fieldContents_insertIndex (index : Nat) (key : String) (datum : Datum)
    (fields : List (String × Datum)) (absent : fieldContents fields key = none) (name : String) :
    fieldContents (insertIndex index key datum fields) name =
      if name = key then some datum.content else fieldContents fields name := by
  have inFront : ∀ fields : List (String × Datum), fieldContents fields key = none →
      fieldContents ((key, datum) :: fields) name =
        if name = key then some datum.content else fieldContents fields name := by
    intro fields absent
    by_cases asked : name = key
    · subst asked
      simp [fieldContents, absent]
    · rw [fieldContents, if_neg asked, if_neg asked, Option.or_none]
  induction fields with
  | nil => exact inFront [] rfl
  | cons field rest ih =>
      obtain ⟨k, d⟩ := field
      have front := inFront ((k, d) :: rest) absent
      obtain ⟨restAbsent, headOther⟩ := Option.or_eq_none_iff.mp absent
      have other : key ≠ k := by simpa using headOther
      rw [insertIndex]
      split
      · split
        · rw [fieldContents, ih restAbsent, fieldContents]
          by_cases asked : name = key
          · subst asked
            rw [if_pos rfl, if_pos rfl, if_neg other, Option.or_none]
          · rw [if_neg asked, if_neg asked]
        · exact front
      · exact front

/-- Defining a field of a record changes what its key says, and nothing else. -/
theorem fieldContents_define (key : String) (datum : Datum) (fields : List (String × Datum))
    (name : String) :
    fieldContents (define key datum fields) name =
      if name = key then some datum.content else fieldContents fields name := by
  have presence := fieldContents_isSome fields key
  unfold define
  by_cases present : fields.any (·.1 == key) = true
  · rw [if_pos present, fieldContents_replace]
    obtain ⟨content, known⟩ := Option.isSome_iff_exists.mp (presence.trans present)
    by_cases asked : name = key
    · subst asked
      rw [if_pos rfl, if_pos rfl, known, Option.map_some]
    · rw [if_neg asked, if_neg asked]
  · rw [if_neg present]
    have absent : fieldContents fields key = none := by
      rw [← Option.not_isSome_iff_eq_none, presence]
      exact present
    split
    · exact fieldContents_insertIndex _ key datum fields absent name
    · rw [fieldContents_append]
      by_cases asked : name = key <;> simp [fieldContents, asked]

/-- The order in which a record lists its keys makes no difference to what it says. -/
theorem content_ofFields (fields : List (String × Datum)) :
    (ofFields fields).content = .record (fieldContents fields) := by
  have defining : ∀ (fields record : List (String × Datum)) (name : String),
      fieldContents (fields.foldl (fun record (key, datum) => define key datum record) record)
        name = (fieldContents fields name).or (fieldContents record name) := by
    intro fields
    induction fields with
    | nil => intro record name; rfl
    | cons field rest ih =>
        intro record name
        obtain ⟨key, datum⟩ := field
        rw [List.foldl_cons, ih, fieldContents_define, fieldContents, Option.or_assoc]
        by_cases asked : name = key <;> simp [asked]
  simp only [ofFields, content, Content.record.injEq]
  funext name
  rw [defining]
  simp [fieldContents]

end Datum

namespace Schema

mutual

/-- Data that passes the check arrives in the page as what it is. -/
theorem checkData_content (path : Path) : ∀ (value : Value) {data : Value},
    checkData path value = .ok data → (Datum.ofValue data).content = dataContent value
  | .null, _, checked => by cases checked; rfl
  | .bool b, _, checked => by cases checked; rfl
  | .int n, _, checked => by cases checked; rfl
  | .float x, _, checked => by cases checked; rfl
  | .text s, _, checked => by cases checked; rfl
  | .fieldKind kind, _, checked => by cases checked; rfl
  | .list items, _, checked => by
      obtain ⟨data, itemsChecked, same⟩ := Outcome.bind_ok_iff.mp checked
      cases same
      simp only [Datum.ofValue, Datum.content, dataContent,
        checkItems_contents path items itemsChecked]
  | .tuple items, _, checked => by
      obtain ⟨data, itemsChecked, same⟩ := Outcome.bind_ok_iff.mp checked
      cases same
      simp only [Datum.ofValue, Datum.content, dataContent,
        checkItems_contents path items itemsChecked]
  | .map entries, _, checked => by
      rw [checkData] at checked
      split at checked
      · obtain ⟨data, entriesChecked, same⟩ := Outcome.bind_ok_iff.mp checked
        cases same
        simp only [Datum.ofValue, Datum.content_ofFields, dataContent,
          checkEntries_contents path entries entriesChecked]
      · cases checked
  | .bytes _, _, checked => by cases checked
  | .function, _, checked => by cases checked
  | .stranger, _, checked => by cases checked
  | .descriptor .., _, checked => by cases checked
  | .script _, _, checked => by cases checked
  | .compiled .., _, checked => by cases checked
  | .options _, _, checked => by cases checked
  | .job .., _, checked => by cases checked

theorem checkItems_contents (path : Path) : ∀ (items : List Value) {data : List Value},
    checkItems path items = .ok data → Datum.contents (Datum.ofItems data) = dataContents items
  | [], _, checked => by cases checked; rfl
  | item :: rest, _, checked => by
      obtain ⟨head, headChecked, checked⟩ := Outcome.bind_ok_iff.mp checked
      obtain ⟨tail, tailChecked, same⟩ := Outcome.bind_ok_iff.mp checked
      cases same
      simp only [Datum.ofItems, Datum.contents, dataContents,
        checkData_content path item headChecked, checkItems_contents path rest tailChecked]

theorem checkEntries_contents (path : Path) :
    ∀ (entries : List (Value × Value)) {data : List (Value × Value)},
      checkEntries path entries = .ok data →
        Datum.fieldContents (Datum.ofEntries data) = entryContents entries
  | [], _, checked => by cases checked; rfl
  | (key, value) :: rest, _, checked => by
      obtain ⟨head, headChecked, checked⟩ := Outcome.bind_ok_iff.mp checked
      obtain ⟨tail, tailChecked, same⟩ := Outcome.bind_ok_iff.mp checked
      cases same
      have valueContent := checkData_content path value headChecked
      have restContents := checkEntries_contents path rest tailChecked
      funext name
      cases key with
      | text key =>
          simp only [Datum.ofEntries, Datum.fieldContents, entryContents, valueContent,
            restContents]
      | _ => simp only [Datum.ofEntries, entryContents, restContents]

end

/-- A selector is read in the page as the text it is. -/
theorem selector_ofValue {selector : Value} (usable : isTextOrNull selector = true) :
    (Datum.ofValue selector).isFalsy = decide (selector.textOf = "") ∧
      (selector.textOf ≠ "" → (Datum.ofValue selector).asText = selector.textOf) := by
  cases selector with
  | null => exact ⟨rfl, fun nonempty => absurd rfl nonempty⟩
  | text s =>
      refine ⟨?_, fun _ => rfl⟩
      change s.isEmpty = decide (s = "")
      rw [Bool.eq_iff_iff, String.isEmpty_iff, decide_eq_true_iff]
  | fieldKind kind => cases kind <;> exact ⟨rfl, fun _ => rfl⟩
  | _ => cases usable

theorem resolve_ofValue {selector : Value} (usable : isTextOrNull selector = true)
    (element : Element) :
    Page.resolve element (Datum.ofValue selector) = target selector element := by
  obtain ⟨falsy, asText⟩ := selector_ofValue usable
  by_cases empty : selector.textOf = ""
  · simp [Page.resolve, target, falsy, empty]
  · simp [Page.resolve, target, falsy, empty, asText empty]

theorem asText_of_nonempty {selector : Value} (usable : isTextOrNull selector = true)
    (present : selector.isEmpty = false) :
    (Datum.ofValue selector).asText = selector.textOf := by
  apply (selector_ofValue usable).2
  intro empty
  cases selector with
  | null => cases present
  | text s =>
      obtain rfl : s = "" := empty
      cases present
  | fieldKind kind => cases kind <;> exact absurd empty (by decide)
  | _ => cases usable

/-- A node that has, for every element, the meaning of a field. -/
structure Faithful (field : Value) (node : Node Value) : Prop where
  sound : node.isSound = true
  means : ∀ element, ∃ datum, Page.run (node.map Datum.ofValue) element = .ok datum ∧
    datum.content = meaning field element

/-- The nodes of a record that have, for every element, the meaning of its fields. -/
structure FaithfulFields (entries : List (Value × Value)) (fields : List (String × Node Value)) :
    Prop where
  sound : Node.areSound fields = true
  means : ∀ element, ∃ data,
    Page.runFields (Node.mapFields Datum.ofValue fields) element = .ok data ∧
      Datum.fieldContents data = fieldMeanings entries element

theorem foundOr_content {path : Path} {default data : Value}
    (checked : checkData path default = .ok data) (found : Option String) :
    (Page.textOr (Datum.ofValue data) found).content = foundOr default found := by
  cases found with
  | none => exact checkData_content path default checked
  | some s => rfl

theorem meaning_of_static {field : Value} (static : isStatic field = true)
    (declarative : isDeclarative field = true) (element : Element) :
    meaning field element = dataContent field := by
  cases field with
  | descriptor => cases static
  | map => cases static
  | script => cases declarative
  | compiled => cases declarative
  | _ => rfl

theorem faithful_value {path : Path} {field data : Value} (static : isStatic field = true)
    (declarative : isDeclarative field = true) (checked : checkData path field = .ok data) :
    Faithful field (.value data) where
  sound := rfl
  means element := ⟨Datum.ofValue data, rfl,
    (checkData_content path field checked).trans (meaning_of_static static declarative element).symm⟩

section Descriptors

variable {path : Path} {kind selector attrName trim default item data : Value}

theorem faithful_text (kindIs : kindOf? kind = some .text) (usable : isTextOrNull selector = true)
    (switch : (trim matches .bool _) = true) (checked : checkData path default = .ok data) :
    Faithful (.descriptor kind selector attrName trim default item)
      (.text selector trim data) where
  sound := rfl
  means element := by
    refine ⟨_, rfl, ?_⟩
    rw [foundOr_content checked, resolve_ofValue usable, meaning, kindIs]
    cases trim with
    | bool on =>
        cases on <;> cases target selector element <;>
          simp [Datum.ofValue, Datum.isFalsy, trimmed]
    | _ => cases switch

theorem faithful_attr (kindIs : kindOf? kind = some .attr) (usable : isTextOrNull selector = true)
    (named : isTextOrNull attrName = true) (present : attrName.isEmpty = false)
    (checked : checkData path default = .ok data) :
    Faithful (.descriptor kind selector attrName trim default item)
      (.attr selector attrName data) where
  sound := rfl
  means element := by
    refine ⟨_, rfl, ?_⟩
    rw [foundOr_content checked, resolve_ofValue usable, asText_of_nonempty named present, meaning,
      kindIs]

theorem faithful_html (kindIs : kindOf? kind = some .html) (usable : isTextOrNull selector = true)
    (checked : checkData path default = .ok data) :
    Faithful (.descriptor kind selector attrName trim default item) (.html selector data) where
  sound := rfl
  means element := by
    refine ⟨_, rfl, ?_⟩
    rw [foundOr_content checked, resolve_ofValue usable, meaning, kindIs]

theorem faithful_presence (kindIs : kindOf? kind = some .presence)
    (usable : isTextOrNull selector = true) :
    Faithful (.descriptor kind selector attrName trim default item) (.presence selector) where
  sound := rfl
  means element := by
    refine ⟨_, rfl, ?_⟩
    rw [resolve_ofValue usable, meaning, kindIs, Datum.content]

theorem faithful_count (kindIs : kindOf? kind = some .count) (usable : isTextOrNull selector = true)
    (present : selector.isEmpty = false) :
    Faithful (.descriptor kind selector attrName trim default item) (.count selector) where
  sound := rfl
  means element := by
    refine ⟨_, rfl, ?_⟩
    rw [asText_of_nonempty usable present, meaning, kindIs, Datum.content]

theorem faithful_array {node : Node Value} (kindIs : kindOf? kind = some .array)
    (usable : isTextOrNull selector = true) (present : selector.isEmpty = false)
    (faithful : Faithful item node) :
    Faithful (.descriptor kind selector attrName trim default item) (.array selector node) where
  sound := faithful.sound
  means element := by
    obtain ⟨items, ran, contents⟩ :=
      Outcome.mapM_ok faithful.means (element.select selector.textOf)
    refine ⟨.list items, ?_, ?_⟩
    · rw [Node.map, Page.run, asText_of_nonempty usable present, ran]
      rfl
    · simp only [Datum.content, Datum.contents_eq_map, contents, meaning, kindIs]

end Descriptors

theorem faithful_object {entries : List (Value × Value)} {fields : List (String × Node Value)}
    (faithful : FaithfulFields entries fields) : Faithful (.map entries) (.object fields) where
  sound := faithful.sound
  means element := by
    obtain ⟨data, ran, contents⟩ := faithful.means element
    refine ⟨.ofFields data, ?_, ?_⟩
    · rw [Node.map, Page.run, ran]
      rfl
    · rw [Datum.content_ofFields, contents, meaning]

mutual

/-- A field without functions becomes a node with its meaning, and adds nothing to the table. -/
theorem Compiles.faithful {field : Value} {sources after : List String} {node : Node Value}
    (compiles : Compiles field sources node after) (declarative : isDeclarative field = true) :
    after = sources ∧ Faithful field node := by
  cases compiles with
  | text kindIs checked =>
      simp only [isDeclarative, kindIs, Bool.and_eq_true] at declarative
      obtain ⟨⟨usable, switch⟩, -⟩ := declarative
      exact ⟨rfl, faithful_text kindIs usable switch checked⟩
  | attr kindIs named checked =>
      simp only [isDeclarative, kindIs, Bool.and_eq_true] at declarative
      obtain ⟨⟨usable, -⟩, nameUsable⟩ := declarative
      exact ⟨rfl, faithful_attr kindIs usable nameUsable named checked⟩
  | html kindIs checked =>
      simp only [isDeclarative, kindIs, Bool.and_eq_true] at declarative
      exact ⟨rfl, faithful_html kindIs declarative.1.1 checked⟩
  | presence kindIs =>
      simp only [isDeclarative, kindIs, Bool.and_eq_true] at declarative
      exact ⟨rfl, faithful_presence kindIs declarative.1.1⟩
  | count kindIs selected =>
      simp only [isDeclarative, kindIs, Bool.and_eq_true] at declarative
      exact ⟨rfl, faithful_count kindIs declarative.1.1 selected⟩
  | array kindIs selected given compiled =>
      simp only [isDeclarative, kindIs, Bool.and_eq_true] at declarative
      obtain ⟨⟨usable, -⟩, item⟩ := declarative
      obtain ⟨kept, faithful⟩ := compiled.faithful item
      exact ⟨kept, faithful_array kindIs usable selected faithful⟩
  | script => cases declarative
  | map compiled =>
      obtain ⟨kept, faithful⟩ := compiled.faithful declarative
      exact ⟨kept, faithful_object faithful⟩
  | static static checked => exact ⟨rfl, faithful_value static declarative checked⟩

theorem CompilesFields.faithful {entries : List (Value × Value)} {sources after : List String}
    {fields : List (String × Node Value)} (compiles : CompilesFields entries sources fields after)
    (declarative : areDeclarative entries = true) :
    after = sources ∧ FaithfulFields entries fields := by
  cases compiles with
  | nil => exact ⟨rfl, rfl, fun _ => ⟨[], rfl, rfl⟩⟩
  | @cons key value node entries fields sources middle after head tail =>
      simp only [areDeclarative, Bool.and_eq_true] at declarative
      obtain ⟨rfl, headFaithful⟩ := head.faithful declarative.1
      obtain ⟨kept, tailFaithful⟩ := tail.faithful declarative.2
      refine ⟨kept, ?_, fun element => ?_⟩
      · simp only [Node.areSound, headFaithful.sound, tailFaithful.sound, Bool.and_self]
      · obtain ⟨datum, ran, content⟩ := headFaithful.means element
        obtain ⟨data, othersRan, contents⟩ := tailFaithful.means element
        refine ⟨(key, datum) :: data, ?_, ?_⟩
        · rw [Node.mapFields, Page.runFields, ran, othersRan]
          rfl
        · funext name
          simp only [Datum.fieldContents, fieldMeanings, content, contents]

end

end Schema

namespace Page

end Page

end WebHarvest
