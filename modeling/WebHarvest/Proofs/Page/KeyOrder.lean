import Mathlib.Data.List.Forall2
import WebHarvest.Proofs.Page.Payload
import WebHarvest.Proofs.Schema.Callbacks
import WebHarvest.Schema.Field

/-!
# The order of keys in a page

A page does not list the keys of a record in the order in which they were defined: array indices
come first, ascending, and only the others keep their order. So a record has its keys in the order
of its schema exactly when the schema has its array indices first and ascending.
-/

set_option autoImplicit false

namespace WebHarvest

namespace Datum

def isIndexKey (key : String) : Bool := (arrayIndex? key).isSome

/-- The first key is a smaller array index than the second one. -/
def IndexBefore (key other : String) : Prop :=
  ∃ i j, arrayIndex? key = some i ∧ arrayIndex? other = some j ∧ i < j

/-- How a page lists the keys of a record that were defined in the given order. -/
def PageOrder (given listed : List String) : Prop :=
  ∃ indices, listed = indices ++ given.eraseDups.filter (fun key => !isIndexKey key) ∧
    indices.Perm (given.eraseDups.filter isIndexKey) ∧ indices.Pairwise IndexBefore

section Digits

theorem digitChar_of_isDigit {c : Char} (digit : c.isDigit = true) :
    c.toNat - 48 < 10 ∧ (c.toNat - 48).digitChar = c := by
  simp only [Char.isDigit, Bool.and_eq_true, decide_eq_true_eq, UInt32.le_iff_toNat_le] at digit
  have low : 48 ≤ c.toNat := digit.1
  have high : c.toNat ≤ 57 := digit.2
  refine ⟨by omega, ?_⟩
  apply Char.toNat_inj.mp
  rw [Nat.toNat_digitChar_of_lt_ten (by omega)]
  omega

theorem toDigits_append_digits {cs : List Char} {n : Nat} (positive : 0 < n)
    (digits : ∀ c ∈ cs, c.isDigit = true) :
    Nat.toDigits 10 n ++ cs =
      Nat.toDigits 10 (cs.foldl (fun n c => 10 * n + (c.toNat - 48)) n) := by
  induction cs generalizing n with
  | nil => simp
  | cons c rest ih =>
      obtain ⟨small, same⟩ := digitChar_of_isDigit (digits c List.mem_cons_self)
      have extended := Nat.toDigits_append_toDigits (b := 10) (by decide) positive small
      rw [Nat.toDigits_of_lt_base small, same] at extended
      have restDigits : ∀ d ∈ rest, d.isDigit = true := fun d member =>
        digits d (List.mem_cons_of_mem _ member)
      rw [List.foldl_cons, ← ih (by omega) restDigits, ← extended, List.append_assoc,
        List.singleton_append]

theorem toList_of_arrayIndex? {key : String} {index : Nat} (found : arrayIndex? key = some index) :
    key.toList = Nat.toDigits 10 index := by
  unfold arrayIndex? at found
  simp only at found
  split at found
  · cases found
  · rename_i plain
    split at found
    · obtain rfl := Option.some.inj found
      simp only [Bool.or_eq_true, Bool.and_eq_true, not_or, not_and, Bool.not_eq_true',
        Bool.not_eq_false] at plain
      obtain ⟨⟨nonempty, digits⟩, canonical⟩ := plain
      cases written : key.toList with
      | nil => simp [written] at nonempty
      | cons c rest =>
          rw [written, List.all_cons, Bool.and_eq_true] at digits
          obtain ⟨small, same⟩ := digitChar_of_isDigit digits.1
          rw [List.foldl_cons, Nat.mul_zero, Nat.zero_add]
          by_cases zero : c.toNat - 48 = 0
          · rw [zero] at same
            subst same
            have alone : rest = [] := by simpa [written, Nat.digitChar] using canonical
            subst alone
            rfl
          · rw [← toDigits_append_digits (by omega) (List.all_eq_true.mp digits.2),
              Nat.toDigits_of_lt_base small, same, List.singleton_append]
    · cases found

theorem arrayIndex?_inj {key other : String} {index : Nat}
    (found : arrayIndex? key = some index) (otherFound : arrayIndex? other = some index) :
    key = other :=
  String.toList_injective
    ((toList_of_arrayIndex? found).trans (toList_of_arrayIndex? otherFound).symm)

end Digits

section Records

theorem keys_insertIndex {index : Nat} {key : String} (isIndex : arrayIndex? key = some index)
    (datum : Datum) {fields : List (String × Datum)} {front back : List String}
    (keys : fields.map (·.1) = front ++ back) (ascending : front.Pairwise IndexBefore)
    (others : ∀ k ∈ front, ∃ i, arrayIndex? k = some i ∧ i ≠ index)
    (plain : ∀ k ∈ back, arrayIndex? k = none) :
    ∃ indices, (insertIndex index key datum fields).map (·.1) = indices ++ back ∧
      indices.Perm (key :: front) ∧ indices.Pairwise IndexBefore := by
  induction front generalizing fields with
  | nil =>
      refine ⟨[key], ?_, .refl _, List.pairwise_singleton _ _⟩
      cases fields with
      | nil => simpa [insertIndex] using keys
      | cons field rest =>
          obtain ⟨k, d⟩ := field
          have noIndex : arrayIndex? k = none := by
            apply plain
            rw [← List.nil_append back, ← keys]
            exact List.mem_cons_self
          rw [insertIndex, noIndex]
          simpa using keys
  | cons k front ih =>
      cases fields with
      | nil => cases keys
      | cons field rest =>
          obtain ⟨name, d⟩ := field
          obtain ⟨rfl, restKeys⟩ : name = k ∧ rest.map (·.1) = front ++ back :=
            List.cons.inj keys
          obtain ⟨i, nameIndex, different⟩ := others name List.mem_cons_self
          obtain ⟨first, ascending⟩ := List.pairwise_cons.mp ascending
          by_cases smaller : i < index
          · obtain ⟨indices, listed, perm, sorted⟩ :=
              ih restKeys ascending fun k member => others k (List.mem_cons_of_mem _ member)
            refine ⟨name :: indices, ?_, (perm.cons name).trans (.swap key name front), ?_⟩
            · simp only [insertIndex, nameIndex, smaller, if_true, List.map_cons, listed,
                List.cons_append]
            · refine List.pairwise_cons.mpr ⟨fun other member => ?_, sorted⟩
              rcases List.mem_cons.mp (perm.mem_iff.mp member) with rfl | inFront
              · exact ⟨i, index, nameIndex, isIndex, smaller⟩
              · exact first other inFront
          · refine ⟨key :: name :: front, ?_, .refl _, ?_⟩
            · simp only [insertIndex, nameIndex, smaller, if_false, List.map_cons, restKeys,
                List.cons_append]
            · have before : IndexBefore key name := ⟨index, i, isIndex, nameIndex, by omega⟩
              refine List.pairwise_cons.mpr ⟨fun other member => ?_,
                List.pairwise_cons.mpr ⟨first, ascending⟩⟩
              rcases List.mem_cons.mp member with rfl | inFront
              · exact before
              · obtain ⟨j, l, atName, atOther, less⟩ := first other inFront
                rw [nameIndex] at atName
                cases atName
                exact ⟨index, l, isIndex, atOther, by omega⟩

theorem mem_of_pageOrder {given listed : List String} (order : PageOrder given listed)
    (key : String) : key ∈ listed ↔ key ∈ given := by
  obtain ⟨indices, rfl, perm, _⟩ := order
  rw [List.mem_append, perm.mem_iff, List.mem_filter, List.mem_filter, List.mem_eraseDups]
  cases isIndexKey key <;> simp

theorem eraseDups_concat_of_mem {given : List String} {key : String} (known : key ∈ given) :
    (given ++ [key]).eraseDups = given.eraseDups := by
  rw [List.eraseDups_append]
  simp [List.removeAll, known]

theorem eraseDups_concat_of_not_mem {given : List String} {key : String} (new : key ∉ given) :
    (given ++ [key]).eraseDups = given.eraseDups ++ [key] := by
  rw [List.eraseDups_append]
  simp only [List.removeAll, List.filter_cons, List.filter_nil, List.elem_eq_mem, new,
    decide_false, Bool.not_false, if_true]
  rfl

theorem keys_replace (key : String) (datum : Datum) (fields : List (String × Datum)) :
    (fields.map fun (k, d) => if k == key then (k, datum) else (k, d)).map (·.1) =
      fields.map (·.1) := by
  rw [List.map_map]
  refine List.map_congr_left fun field _ => ?_
  simp only [Function.comp_apply]
  split <;> rfl

/-- A new index key goes among the indices, and leaves the other keys behind them. -/
theorem pageOrder_insertIndex {given : List String} {fields : List (String × Datum)}
    (order : PageOrder given (fields.map (·.1))) {key : String} {index : Nat}
    (isIndex : arrayIndex? key = some index) (new : key ∉ given) (datum : Datum) :
    PageOrder (given ++ [key]) ((insertIndex index key datum fields).map (·.1)) := by
  obtain ⟨indices, listed, perm, ascending⟩ := order
  have others : ∀ k ∈ indices, ∃ i, arrayIndex? k = some i ∧ i ≠ index := by
    intro k member
    obtain ⟨inGiven, known⟩ := List.mem_filter.mp (perm.mem_iff.mp member)
    obtain ⟨i, atKey⟩ := Option.isSome_iff_exists.mp known
    refine ⟨i, atKey, ?_⟩
    rintro rfl
    rw [arrayIndex?_inj atKey isIndex, List.mem_eraseDups] at inGiven
    exact new inGiven
  have plain : ∀ k ∈ given.eraseDups.filter (fun key => !isIndexKey key),
      arrayIndex? k = none := by
    intro k member
    simpa [isIndexKey] using (List.mem_filter.mp member).2
  obtain ⟨longer, keys, longerPerm, sorted⟩ :=
    keys_insertIndex isIndex datum listed ascending others plain
  have own : isIndexKey key = true := by rw [isIndexKey, isIndex, Option.isSome_some]
  rw [PageOrder, eraseDups_concat_of_not_mem new, List.filter_append, List.filter_append]
  refine ⟨longer, ?_, ?_, sorted⟩
  · simpa [own] using keys
  · have ends : [key].filter isIndexKey = [key] := by simp [own]
    rw [ends]
    exact longerPerm.trans ((perm.cons key).trans (List.perm_append_singleton _ _).symm)

theorem pageOrder_define {given : List String} {fields : List (String × Datum)}
    (order : PageOrder given (fields.map (·.1))) (key : String) (datum : Datum) :
    PageOrder (given ++ [key]) ((define key datum fields).map (·.1)) := by
  have known : fields.any (·.1 == key) = true ↔ key ∈ given := by
    rw [← mem_of_pageOrder order key, List.any_eq_true, List.mem_map]
    simp only [beq_iff_eq]
  unfold define
  by_cases present : fields.any (·.1 == key) = true
  · rw [if_pos present, keys_replace, PageOrder, eraseDups_concat_of_mem (known.mp present)]
    exact order
  · have new : key ∉ given := fun member => present (known.mpr member)
    rw [if_neg present]
    cases found : arrayIndex? key with
    | none =>
        have plain : isIndexKey key = false := by rw [isIndexKey, found, Option.isSome_none]
        rw [PageOrder, eraseDups_concat_of_not_mem new, List.filter_append, List.filter_append]
        obtain ⟨indices, listed, perm, ascending⟩ := order
        refine ⟨indices, ?_, ?_, ascending⟩
        · simp [listed, plain]
        · simpa [plain] using perm
    | some index => exact pageOrder_insertIndex order found new datum

theorem mem_insertIndex {index : Nat} {key : String} {datum : Datum}
    {fields : List (String × Datum)} {field : String × Datum}
    (member : field ∈ insertIndex index key datum fields) :
    field = (key, datum) ∨ field ∈ fields := by
  induction fields with
  | nil => exact Or.inl (List.mem_singleton.mp member)
  | cons first rest ih =>
      obtain ⟨k, d⟩ := first
      rw [insertIndex] at member
      split at member
      · split at member
        · rcases List.mem_cons.mp member with rfl | later
          · exact Or.inr List.mem_cons_self
          · rcases ih later with new | old
            · exact Or.inl new
            · exact Or.inr (List.mem_cons_of_mem _ old)
        · exact List.mem_cons.mp member
      · exact List.mem_cons.mp member

theorem mem_define {key : String} {datum : Datum} {fields : List (String × Datum)}
    {field : String × Datum} (member : field ∈ define key datum fields) :
    field = (key, datum) ∨ field ∈ fields := by
  unfold define at member
  split at member
  · obtain ⟨⟨k, d⟩, old, rfl⟩ := List.mem_map.mp member
    dsimp only
    by_cases same : k = key
    · simp [same]
    · have different : (k == key) = false := by simpa using same
      rw [different]
      exact Or.inr old
  · split at member
    · exact mem_insertIndex member
    · rcases List.mem_append.mp member with old | new
      · exact Or.inr old
      · exact Or.inl (List.mem_singleton.mp new)

/-- A record that is defined field by field lists the keys in the order of a page, each with a datum
that was given for it. -/
theorem ofFields_listed (fields : List (String × Datum)) :
    ∃ listed, ofFields fields = .record listed ∧
      PageOrder (fields.map (·.1)) (listed.map (·.1)) ∧ ∀ field ∈ listed, field ∈ fields := by
  have defining : ∀ (rest given record : List (String × Datum)),
      PageOrder (given.map (·.1)) (record.map (·.1)) → (∀ field ∈ record, field ∈ given) →
      let listed := rest.foldl (fun record (key, datum) => define key datum record) record
      PageOrder ((given ++ rest).map (·.1)) (listed.map (·.1)) ∧
        ∀ field ∈ listed, field ∈ given ++ rest := by
    intro rest
    induction rest with
    | nil =>
        intro given record order known
        rw [List.append_nil]
        exact ⟨order, known⟩
    | cons first rest ih =>
        intro given record order known
        obtain ⟨key, datum⟩ := first
        have split : given ++ (key, datum) :: rest = (given ++ [(key, datum)]) ++ rest := by simp
        rw [split]
        refine ih (given ++ [(key, datum)]) (define key datum record) ?_ ?_
        · rw [List.map_append]
          exact pageOrder_define order key datum
        · intro field member
          rcases mem_define member with rfl | old
          · exact List.mem_append_right given List.mem_cons_self
          · exact List.mem_append_left _ (known field old)
  have empty : PageOrder [] [] := ⟨[], rfl, .refl _, .nil⟩
  obtain ⟨order, known⟩ := defining fields [] [] empty fun _ member => by cases member
  exact ⟨_, rfl, order, known⟩

end Records

section Kept

/-- Whether a key that is given first is listed first. -/
def Precedes (key later : String) : Prop :=
  ∀ j, arrayIndex? later = some j → ∃ i, arrayIndex? key = some i ∧ i < j

theorem eraseDups_of_nodup {keys : List String} (distinct : keys.Nodup) :
    keys.eraseDups = keys := by
  induction keys with
  | nil => rfl
  | cons key rest ih =>
      obtain ⟨absent, restDistinct⟩ := List.nodup_cons.mp distinct
      have others : rest.filter (fun other => !other == key) = rest := by
        rw [List.filter_eq_self]
        intro other member
        have different : other ≠ key := fun same => absent (same ▸ member)
        simpa using different
      rw [List.eraseDups_cons, others, ih restDistinct]

theorem indices_first_of_precedes {given : List String} (ascending : given.Pairwise Precedes) :
    given.filter isIndexKey ++ given.filter (fun key => !isIndexKey key) = given ∧
      (given.filter isIndexKey).Pairwise IndexBefore := by
  induction ascending with
  | nil => exact ⟨rfl, .nil⟩
  | @cons key rest first _ ih =>
      obtain ⟨restKept, restAscending⟩ := ih
      by_cases isIndex : isIndexKey key = true
      · have before : ∀ later ∈ rest.filter isIndexKey, IndexBefore key later := by
          intro later member
          obtain ⟨inRest, laterIndex⟩ := List.mem_filter.mp member
          obtain ⟨j, atLater⟩ := Option.isSome_iff_exists.mp laterIndex
          obtain ⟨i, atKey, less⟩ := first later inRest j atLater
          exact ⟨i, j, atKey, atLater, less⟩
        rw [List.filter_cons_of_pos isIndex, List.filter_cons_of_neg (by simp [isIndex]),
          List.cons_append, restKept]
        exact ⟨rfl, List.pairwise_cons.mpr ⟨before, restAscending⟩⟩
      · -- behind a key that is no index there is none
        have noIndices : rest.filter isIndexKey = [] := by
          rw [List.filter_eq_nil_iff]
          intro later member laterIndex
          obtain ⟨j, atLater⟩ := Option.isSome_iff_exists.mp laterIndex
          obtain ⟨i, atKey, _⟩ := first later member j atLater
          exact isIndex (Option.isSome_iff_exists.mpr ⟨i, atKey⟩)
        rw [noIndices, List.nil_append] at restKept
        rw [List.filter_cons_of_neg isIndex, List.filter_cons_of_pos (by simp [isIndex]),
          noIndices, restKept]
        exact ⟨rfl, .nil⟩

theorem precedes_of_plain {key later : String} (plain : (!isIndexKey later) = true) :
    Precedes key later := by
  intro j found
  rw [isIndexKey, found] at plain
  cases plain

/-- A page keeps the order of distinct keys exactly when the array indices among them come first,
ascending. -/
theorem pageOrder_eq_iff {given listed : List String} (distinct : given.Nodup)
    (order : PageOrder given listed) : listed = given ↔ given.Pairwise Precedes := by
  obtain ⟨indices, rfl, perm, ascending⟩ := order
  rw [eraseDups_of_nodup distinct] at perm ⊢
  constructor
  · intro kept
    rw [← kept]
    refine List.pairwise_append.mpr ⟨ascending.imp ?_, ?_, ?_⟩
    · rintro key later ⟨i, j, atKey, atLater, less⟩ index found
      rw [atLater] at found
      cases found
      exact ⟨i, atKey, less⟩
    · exact List.pairwise_of_forall_mem_list fun _ _ _ later =>
        precedes_of_plain (List.mem_filter.mp later).2
    · intro _ _ _ later
      exact precedes_of_plain (List.mem_filter.mp later).2
  · intro precedes
    obtain ⟨kept, sorted⟩ := indices_first_of_precedes precedes
    have same : indices = given.filter isIndexKey := by
      refine List.Perm.eq_of_pairwise ?_ ascending sorted perm
      rintro key other _ _ ⟨i, j, atKey, atOther, less⟩ ⟨j', i', atOther', atKey', less'⟩
      rw [atKey] at atKey'
      rw [atOther] at atOther'
      cases atKey'
      cases atOther'
      omega
    rw [same, kept]

/-- How a page lists the keys of a record, and when that is the order in which they were given. -/
structure RecordOrder (given listed : List String) : Prop where
  page : PageOrder given listed
  kept_iff : given.Nodup → (listed = given ↔ given.Pairwise Precedes)

end Kept

/-- Whether a datum is neither a list nor a record. -/
def isFlat : Datum → Bool
  | .list _ => false
  | .record _ => false
  | _ => true

end Datum

namespace Schema

/-- The keys of a mapping that are texts, in their order. -/
def textKeys : List (Value × Value) → List String
  | [] => []
  | (.text key, _) :: rest => key :: textKeys rest
  | _ :: rest => textKeys rest

/-- Whether results for a field are lists or records. -/
def isNested : Value → Bool
  | .descriptor kind _ _ _ _ _ => decide (kindOf? kind = some .array)
  | .list _ => true
  | .tuple _ => true
  | .map _ => true
  | _ => false

mutual

/-- A datum stands for a field, and each of its records lists the keys of its mapping in a given
order. -/
inductive Listed (order : List String → List String → Prop) : Value → Datum → Prop where
  | map {entries : List (Value × Value)} {fields : List (String × Datum)}
      (keys : order (textKeys entries) (fields.map (·.1)))
      (listed : ∀ field ∈ fields, ListedField order entries field.1 field.2) :
      Listed order (.map entries) (.record fields)
  | list {items : List Value} {results : List Datum}
      (listed : List.Forall₂ (Listed order) items results) :
      Listed order (.list items) (.list results)
  | tuple {items : List Value} {results : List Datum}
      (listed : List.Forall₂ (Listed order) items results) :
      Listed order (.tuple items) (.list results)
  | array {kind selector attrName trim default item : Value} {results : List Datum}
      (kindIs : kindOf? kind = some .array)
      (listed : ∀ result ∈ results, Listed order item result) :
      Listed order (.descriptor kind selector attrName trim default item) (.list results)
  | default {kind selector attrName trim default item : Value} {result : Datum}
      (kindIs : kindOf? kind ≠ some .array) (listed : Listed order default result) :
      Listed order (.descriptor kind selector attrName trim default item) result
  | flat {field : Value} {result : Datum} (single : isNested field = false)
      (flat : result.isFlat = true) : Listed order field result

/-- A datum stands for an entry of a mapping. -/
inductive ListedField (order : List String → List String → Prop) :
    List (Value × Value) → String → Datum → Prop where
  | entry {entries : List (Value × Value)} {key : String} {value : Value} {result : Datum}
      (given : (.text key, value) ∈ entries) (listed : Listed order value result) :
      ListedField order entries key result

end

section Data

theorem textKeys_of_checked {path : Path} {entries data : List (Value × Value)}
    (checked : checkEntries path entries = .ok data) :
    (Datum.ofEntries data).map (·.1) = textKeys entries := by
  induction entries generalizing data with
  | nil =>
      cases checked
      rfl
  | cons entry rest ih =>
      obtain ⟨key, value⟩ := entry
      obtain ⟨head, _, checked⟩ := Outcome.bind_ok_iff.mp checked
      obtain ⟨tail, tailChecked, same⟩ := Outcome.bind_ok_iff.mp checked
      cases same
      have restKeys := ih tailChecked
      cases key with
      | text key => rw [Datum.ofEntries, List.map_cons, restKeys, textKeys]
      | _ => rw [Datum.ofEntries, restKeys, textKeys] <;> simp

theorem listed_ofFields {entries : List (Value × Value)} {fields : List (String × Datum)}
    (keys : fields.map (·.1) = textKeys entries)
    (listed : ∀ field ∈ fields, ListedField Datum.RecordOrder entries field.1 field.2) :
    Listed Datum.RecordOrder (.map entries) (Datum.ofFields fields) := by
  obtain ⟨shown, same, pageOrder, known⟩ := Datum.ofFields_listed fields
  rw [keys] at pageOrder
  rw [same]
  refine .map ⟨pageOrder, fun distinct => Datum.pageOrder_eq_iff distinct pageOrder⟩ ?_
  intro field member
  exact listed field (known field member)

mutual

/-- Data that passes the check arrives in the page with each mapping listed as pages do. -/
theorem checkData_listed {path : Path} (value : Value) {data : Value}
    (checked : checkData path value = .ok data) :
    Listed Datum.RecordOrder value (Datum.ofValue data) := by
  cases value with
  | list items =>
      obtain ⟨sent, itemsChecked, same⟩ := Outcome.bind_ok_iff.mp checked
      cases same
      exact .list (checkItems_listed items itemsChecked)
  | tuple items =>
      obtain ⟨sent, itemsChecked, same⟩ := Outcome.bind_ok_iff.mp checked
      cases same
      exact .tuple (checkItems_listed items itemsChecked)
  | map entries =>
      rw [checkData] at checked
      split at checked
      · obtain ⟨sent, entriesChecked, same⟩ := Outcome.bind_ok_iff.mp checked
        cases same
        exact listed_ofFields (textKeys_of_checked entriesChecked)
          (checkEntries_listed entries entriesChecked)
      · cases checked
  | null | bool | int | float | text | fieldKind =>
      cases checked
      exact .flat rfl rfl
  | _ => cases checked

theorem checkItems_listed {path : Path} (items : List Value) {data : List Value}
    (checked : checkItems path items = .ok data) :
    List.Forall₂ (Listed Datum.RecordOrder) items (Datum.ofItems data) := by
  cases items with
  | nil =>
      cases checked
      exact .nil
  | cons item rest =>
      obtain ⟨head, headChecked, checked⟩ := Outcome.bind_ok_iff.mp checked
      obtain ⟨tail, tailChecked, same⟩ := Outcome.bind_ok_iff.mp checked
      cases same
      exact .cons (checkData_listed item headChecked) (checkItems_listed rest tailChecked)

theorem checkEntries_listed {path : Path} (entries : List (Value × Value))
    {data : List (Value × Value)} (checked : checkEntries path entries = .ok data) :
    ∀ field ∈ Datum.ofEntries data, ListedField Datum.RecordOrder entries field.1 field.2 := by
  cases entries with
  | nil =>
      cases checked
      intro field member
      cases member
  | cons entry rest =>
      obtain ⟨key, value⟩ := entry
      obtain ⟨head, headChecked, checked⟩ := Outcome.bind_ok_iff.mp checked
      obtain ⟨tail, tailChecked, same⟩ := Outcome.bind_ok_iff.mp checked
      cases same
      have inRest : ∀ field ∈ Datum.ofEntries tail,
          ListedField Datum.RecordOrder ((key, value) :: rest) field.1 field.2 := by
        intro field member
        obtain ⟨known, listed⟩ := checkEntries_listed rest tailChecked field member
        exact ⟨List.mem_cons_of_mem _ known, listed⟩
      cases key with
      | text key =>
          intro field member
          rw [Datum.ofEntries] at member
          rcases List.mem_cons.mp member with rfl | later
          · exact ⟨List.mem_cons_self, checkData_listed value headChecked⟩
          · exact inRest field later
      | _ => exact inRest

end

end Data

section Fields

/-- A node that runs on every element, with results that are listed as demanded for its field. -/
structure Lists (field : Value) (node : Node Value) : Prop where
  sound : node.isSound = true
  runs : ∀ element, ∃ result, Page.run (node.map Datum.ofValue) element = .ok result ∧
    Listed Datum.RecordOrder field result

/-- The same for the fields of a record. -/
structure ListsFields (entries : List (Value × Value)) (fields : List (String × Node Value)) :
    Prop where
  sound : Node.areSound fields = true
  runs : ∀ element, ∃ results,
    Page.runFields (Node.mapFields Datum.ofValue fields) element = .ok results ∧
      results.map (·.1) = textKeys entries ∧
      ∀ field ∈ results, ListedField Datum.RecordOrder entries field.1 field.2

theorem listed_textOr {kind selector attrName trim default item data : Value}
    (kindIs : kindOf? kind ≠ some .array) (checked : checkData [] default = .ok data)
    (found : Option String) :
    Listed Datum.RecordOrder (.descriptor kind selector attrName trim default item)
      (Page.textOr (Datum.ofValue data) found) := by
  cases found with
  | none => exact .default kindIs (checkData_listed default checked)
  | some s => exact .flat (decide_eq_false kindIs) rfl

mutual

theorem Compiles.lists {field : Value} {sources after : List String} {node : Node Value}
    (compiles : Compiles field sources node after) (pure : scriptsOf field = []) :
    Lists field node := by
  cases compiles with
  | text kindIs checked =>
      exact ⟨rfl, fun element => ⟨_, rfl, listed_textOr (by simp [kindIs]) checked _⟩⟩
  | attr kindIs named checked =>
      exact ⟨rfl, fun element => ⟨_, rfl, listed_textOr (by simp [kindIs]) checked _⟩⟩
  | html kindIs checked =>
      exact ⟨rfl, fun element => ⟨_, rfl, listed_textOr (by simp [kindIs]) checked _⟩⟩
  | presence kindIs => exact ⟨rfl, fun element => ⟨_, rfl, .flat (by simp [isNested, kindIs]) rfl⟩⟩
  | count kindIs selected =>
      exact ⟨rfl, fun element => ⟨_, rfl, .flat (by simp [isNested, kindIs]) rfl⟩⟩
  | @array kind selector attrName trim default item _ _ node kindIs selected given compiled =>
      have pureItem : scriptsOf item = [] := by
        simpa [scriptsOf, kindIs, Place.below] using pure
      have lists := compiled.lists pureItem
      refine ⟨lists.sound, fun element => ?_⟩
      obtain ⟨results, ran, _, each⟩ := Outcome.mapM_ok_forall lists.runs
        (element.select (Datum.ofValue selector).asText)
      refine ⟨.list results, ?_, .array kindIs each⟩
      rw [Node.map, Page.run, ran]
      rfl
  | script written present => cases pure
  | @map entries fields _ _ compiled =>
      have lists := compiled.lists pure
      refine ⟨lists.sound, fun element => ?_⟩
      obtain ⟨results, ran, keys, each⟩ := lists.runs element
      refine ⟨.ofFields results, ?_, listed_ofFields keys each⟩
      rw [Node.map, Page.run, ran]
      rfl
  | static static checked =>
      exact ⟨rfl, fun element => ⟨_, rfl, checkData_listed field checked⟩⟩

theorem CompilesFields.lists {entries : List (Value × Value)} {sources after : List String}
    {fields : List (String × Node Value)} {index : Nat}
    (compiles : CompilesFields entries sources fields after)
    (pure : scriptsFrom index entries = []) : ListsFields entries fields := by
  cases compiles with
  | nil => exact ⟨rfl, fun element => ⟨[], rfl, rfl, fun _ member => by cases member⟩⟩
  | @cons key value node rest nodes _ middle _ head tail =>
      rw [scriptsFrom, List.append_eq_nil_iff, Place.below, List.map_eq_nil_iff] at pure
      have headLists := head.lists pure.1
      have tailLists := tail.lists pure.2
      refine ⟨?_, fun element => ?_⟩
      · rw [Node.areSound, headLists.sound, tailLists.sound, Bool.and_self]
      · obtain ⟨result, ran, listed⟩ := headLists.runs element
        obtain ⟨results, restRan, keys, each⟩ := tailLists.runs element
        refine ⟨(key, result) :: results, ?_, ?_, ?_⟩
        · rw [Node.mapFields, Page.runFields, ran, restRan]
          rfl
        · rw [List.map_cons, keys, textKeys]
        · intro field member
          rcases List.mem_cons.mp member with rfl | later
          · exact ⟨List.mem_cons_self, listed⟩
          · obtain ⟨known, listed⟩ := each field later
            exact ⟨List.mem_cons_of_mem _ known, listed⟩

end

end Fields

end Schema

namespace Page

/-- What a schema without functions extracts lists the keys of each record in the order of a page.
So a record has its keys in the order of its mapping exactly when no array index stands in the
mapping behind a key that is none, or behind a greater index. -/
theorem interpretPayload_keys {schema : Value} {compiled : CompiledSchema Value}
    (pure : Schema.scriptsOf schema = [])
    (compiles : Schema.compileSchema schema = .ok compiled) (elements : List Element) :
    ∃ results, interpretPayload (.record compiled.payload) elements = .ok results ∧
      results.length = elements.length ∧
      ∀ result ∈ results, Schema.Listed Datum.RecordOrder schema result := by
  obtain ⟨entries, rfl⟩ : ∃ entries, schema = .map entries := by
    cases schema with
    | map entries => exact ⟨entries, rfl⟩
    | _ => cases compiles
  obtain ⟨sources, ran, _⟩ := Schema.finish_ok_iff.mp compiles
  have derivation : Schema.Compiles (.map entries) [] compiled.root sources :=
    Schema.compileNode_run_iff.mp ran
  have lists := derivation.lists pure
  rw [interpretPayload_payload compiled lists.sound]
  exact Outcome.mapM_ok_forall lists.runs elements

/-- The index "1" overtakes the key "b", which the schema has first. -/
theorem interpretPayload_keys_index :
    let schema : Value := .map [(.text "b", Schema.text), (.text "1", Schema.text)]
    let element : Element := .node (some "x") none [] []
    ∃ compiled, Schema.scriptsOf schema = [] ∧ Schema.compileSchema schema = .ok compiled ∧
      ∃ results, interpretPayload (.record compiled.payload) [element] = .ok results ∧
        (∀ result ∈ results, Schema.Listed Datum.RecordOrder schema result) ∧
        results = [.record [("1", .text "x"), ("b", .text "x")]] := by
  intro schema element
  have compiles : ∃ compiled, Schema.compileSchema schema = .ok compiled ∧
      interpretPayload (.record compiled.payload) [element] =
        .ok [.record [("1", .text "x"), ("b", .text "x")]] := ⟨_, rfl, rfl⟩
  obtain ⟨compiled, compiles, runs⟩ := compiles
  obtain ⟨results, ran, _, listed⟩ := interpretPayload_keys rfl compiles [element]
  rw [runs] at ran
  cases ran
  exact ⟨compiled, rfl, compiles, _, runs, listed, rfl⟩

end Page

end WebHarvest
