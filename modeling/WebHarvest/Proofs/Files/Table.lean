import Mathlib.Data.List.Basic
import WebHarvest.Proofs.Files.Tree

/-!
# Directories of files

A directory that is reached by a path and has only files below it is a table from names to texts:
writing, renaming and removing a file change the text of one name, and leave the way to the
directory as it is.
-/

set_option autoImplicit false

namespace WebHarvest.FileTree

variable {tree : FileTree} {place : List String} {entry : FileEntry}

section Tables

variable {directory : String}

/-- What an entry is to the directory at a place, if it stands directly below. -/
def childOf (place : List String) (item : List String × FileEntry) : Option (String × FileEntry) :=
  if item.1.dropLast == place then item.1.getLast?.map fun name => (name, item.2) else none

/-- What a directory lists: the names of its entries and what they lead to. -/
def childrenAt (tree : FileTree) (place : List String) : List (String × FileEntry) :=
  tree.entries.filterMap (childOf place)

theorem childOf_eq_some_iff {item : List String × FileEntry} {name : String} :
    childOf place item = some (name, entry) ↔ item = (place ++ [name], entry) := by
  obtain ⟨p, e⟩ := item
  unfold childOf
  constructor
  · intro found
    split at found
    · rename_i inside
      obtain ⟨last, isLast, same⟩ := Option.map_eq_some_iff.mp found
      cases same
      have spelled := List.dropLast_append_getLast? name isLast
      rw [beq_iff_eq.mp inside] at spelled
      rw [spelled]
    · cases found
  · intro same
    cases same
    simp

theorem mem_childrenAt {name : String} :
    (name, entry) ∈ tree.childrenAt place ↔ (place ++ [name], entry) ∈ tree.entries := by
  unfold childrenAt
  rw [List.mem_filterMap]
  constructor
  · rintro ⟨item, member, found⟩
    rw [← childOf_eq_some_iff.mp found]
    exact member
  · intro member
    exact ⟨_, member, childOf_eq_some_iff.mpr rfl⟩

theorem children_eq_childrenAt {path : String} (located : tree.locate path = .ok place)
    (isDirectory : tree.entry? place = some .directory) :
    tree.children path = .ok (tree.childrenAt place) := by
  rw [children, find_of_located located, isDirectory]
  rfl

/-- A directory cannot be surveyed when the path of one of its entries is too long. -/
theorem survey_of_located {path : String} (located : tree.locate path = .ok place)
    (isDirectory : tree.entry? place = some .directory) :
    tree.survey path = match (tree.childrenAt place).find? fun child =>
        pathLimit ≤ (FilePath.child path child.1).utf8ByteSize with
      | some (name, _) => refused (FilePath.child path name) .nameTooLong
      | none => .ok (tree.childrenAt place) := by
  rw [survey, children_eq_childrenAt located isDirectory]
  rfl

theorem survey_eq_childrenAt {path : String} (located : tree.locate path = .ok place)
    (isDirectory : tree.entry? place = some .directory)
    (short : ∀ child ∈ tree.childrenAt place,
      (FilePath.child path child.1).utf8ByteSize < pathLimit) :
    tree.survey path = .ok (tree.childrenAt place) := by
  have none : (tree.childrenAt place).find? (fun child =>
      pathLimit ≤ (FilePath.child path child.1).utf8ByteSize) = none := by
    rw [List.find?_eq_none]
    intro child member
    simpa using short child member
  rw [survey_of_located located isDirectory, none]

theorem names_childOf {item : List String × FileEntry} (name : String) :
    (childOf place (if item.1 == place ++ [name] then (item.1, entry) else item)).map (·.1) =
      (childOf place item).map (·.1) := by
  obtain ⟨p, e⟩ := item
  by_cases here : p = place ++ [name]
  · simp [childOf, here]
  · simp [here]

theorem names_put {name : String} :
    ((tree.put (place ++ [name]) entry).childrenAt place).map (·.1) =
      if (tree.entry? (place ++ [name])).isSome then (tree.childrenAt place).map (·.1)
      else (tree.childrenAt place).map (·.1) ++ [name] := by
  unfold put childrenAt
  split
  · rename_i known
    rw [List.filterMap_map, List.map_filterMap, List.map_filterMap]
    refine List.filterMap_congr fun item _ => ?_
    exact names_childOf name
  · rename_i unknown
    have last : childOf place (place ++ [name], entry) = some (name, entry) :=
      childOf_eq_some_iff.mpr rfl
    simp [List.filterMap_append, last]

theorem names_drop_sublist {name : String} :
    ((tree.drop (place ++ [name])).childrenAt place).map (·.1) |>.Sublist
      ((tree.childrenAt place).map (·.1)) := by
  unfold drop childrenAt
  exact (List.filter_sublist.filterMap _).map _

theorem mem_put (deep : place ≠ []) {other : List String} {e : FileEntry} :
    (other, e) ∈ (tree.put place entry).entries ↔
      if other = place then e = entry else (other, e) ∈ tree.entries := by
  unfold put
  rw [lookup_eq_find? deep]
  cases known : tree.entries.find? (·.1 == place) with
  | none =>
      have absent : ∀ e, (place, e) ∉ tree.entries := by
        intro e member
        exact List.find?_eq_none.mp known _ member (beq_self_eq_true place)
      by_cases here : other = place
      · subst here
        simp [absent]
      · simp [here]
  | some found =>
      obtain ⟨p, old⟩ := found
      have inside := List.mem_of_find?_eq_some known
      obtain rfl : p = place := by simpa using List.find?_some known
      simp only [Option.map_some, Option.isSome_some, if_true, List.mem_map]
      constructor
      · rintro ⟨⟨q, f⟩, member, same⟩
        by_cases here : q = p
        · simp only [here, beq_self_eq_true, if_true, Prod.mk.injEq] at same
          obtain ⟨rfl, rfl⟩ := same
          simp
        · have apart : (q == p) = false := by simpa using here
          simp only [apart, Bool.false_eq_true, if_false, Prod.mk.injEq] at same
          obtain ⟨rfl, rfl⟩ := same
          rw [if_neg here]
          exact member
      · intro said
        by_cases here : other = p
        · rw [if_pos here] at said
          exact ⟨(p, old), inside, by simp [here, said]⟩
        · rw [if_neg here] at said
          exact ⟨(other, e), said, by simp [here]⟩

theorem mem_drop {other : List String} {e : FileEntry} :
    (other, e) ∈ (tree.drop place).entries ↔ other ≠ place ∧ (other, e) ∈ tree.entries := by
  unfold drop
  rw [List.mem_filter]
  simp [and_comm]

/-- A directory, reached by a path, that has only files, whose texts are given by their names. -/
structure HoldsFiles (tree : FileTree) (directory : String) (place : List String)
    (texts : String → Option String) : Prop where
  located : tree.locate directory = .ok place
  isDirectory : tree.entry? place = some .directory
  distinct : ((tree.childrenAt place).map (·.1)).Nodup
  held : ∀ name entry, (name, entry) ∈ tree.childrenAt place ↔
    ∃ text, texts name = some text ∧ entry = .file text
  short : ∀ name text, texts name = some text →
    (FilePath.child directory name).utf8ByteSize < pathLimit

namespace HoldsFiles

variable {texts : String → Option String} {name : String}

theorem lookup (holds : HoldsFiles tree directory place texts) (name : String) :
    tree.entry? (place ++ [name]) = (texts name).map .file := by
  have deep : place ++ [name] ≠ [] := by simp
  rw [lookup_eq_find? deep]
  cases found : tree.entries.find? (·.1 == place ++ [name]) with
  | none =>
      cases held : texts name with
      | none => rfl
      | some text =>
          have member := mem_childrenAt.mp ((holds.held name (.file text)).mpr ⟨text, held, rfl⟩)
          exact absurd (beq_self_eq_true _) (List.find?_eq_none.mp found _ member)
  | some item =>
      obtain ⟨p, entry⟩ := item
      have member := List.mem_of_find?_eq_some found
      obtain rfl : p = place ++ [name] := by simpa using List.find?_some found
      obtain ⟨text, held, rfl⟩ := (holds.held name entry).mp (mem_childrenAt.mpr member)
      rw [held]
      rfl

theorem directory_kept (holds : HoldsFiles tree directory place texts) {other : FileTree}
    (same : ∀ p, p ≠ place ++ [name] → other.entry? p = tree.entry? p) (p : List String)
    (isDirectory : tree.entry? p = some .directory) : other.entry? p = some .directory := by
  rw [same p, isDirectory]
  rintro rfl
  rw [holds.lookup name] at isDirectory
  cases held : texts name <;> rw [held] at isDirectory <;> cases isDirectory

theorem put (holds : HoldsFiles tree directory place texts) (text : String)
    (short : (FilePath.child directory name).utf8ByteSize < pathLimit) :
    HoldsFiles (tree.put (place ++ [name]) (.file text)) directory place
      (Function.update texts name (some text)) := by
  have deep : place ++ [name] ≠ [] := by simp
  have others : ∀ p, p ≠ place ++ [name] →
      FileTree.entry? (tree.put (place ++ [name]) (.file text)) p = tree.entry? p := by
    intro p apart
    rw [lookup_put deep, if_neg apart]
  have kept := holds.directory_kept others
  refine ⟨locate_of_directories root_put kept holds.located, kept _ holds.isDirectory,
    ?_, ?_, ?_⟩
  · rw [names_put]
    split
    · exact holds.distinct
    · rename_i unknown
      refine List.nodup_append.mpr ⟨holds.distinct, by simp, ?_⟩
      intro listed member last isLast same
      obtain rfl := List.mem_singleton.mp isLast
      obtain ⟨⟨_, entry⟩, known, rfl⟩ := List.mem_map.mp member
      obtain ⟨old, held, -⟩ := (holds.held _ entry).mp known
      rw [holds.lookup, ← same, held] at unknown
      exact unknown rfl
  · intro other entry
    rw [mem_childrenAt, mem_put deep]
    by_cases here : other = name
    · subst here
      simp
    · rw [if_neg (by simpa using here), ← mem_childrenAt, holds.held,
        Function.update_of_ne here]
  · intro other content known
    by_cases here : other = name
    · exact here ▸ short
    · rw [Function.update_of_ne here] at known
      exact holds.short other content known

theorem drop (holds : HoldsFiles tree directory place texts) (name : String) :
    HoldsFiles (tree.drop (place ++ [name])) directory place (Function.update texts name none) := by
  have deep : place ++ [name] ≠ [] := by simp
  have others : ∀ p, p ≠ place ++ [name] →
      FileTree.entry? (tree.drop (place ++ [name])) p = tree.entry? p := by
    intro p apart
    rw [lookup_drop deep, if_neg apart]
  have kept := holds.directory_kept others
  refine ⟨locate_of_directories root_drop kept holds.located, kept _ holds.isDirectory,
    ?_, ?_, ?_⟩
  · exact names_drop_sublist.nodup holds.distinct
  · intro other entry
    rw [mem_childrenAt, mem_drop]
    by_cases here : other = name
    · subst here
      simp
    · rw [← mem_childrenAt, holds.held, Function.update_of_ne here]
      simp [here]
  · intro other content known
    by_cases here : other = name
    · rw [here, Function.update_self] at known
      cases known
    · rw [Function.update_of_ne here] at known
      exact holds.short other content known

theorem survey (holds : HoldsFiles tree directory place texts) :
    tree.survey directory = .ok (tree.childrenAt place) := by
  refine survey_eq_childrenAt holds.located holds.isDirectory ?_
  rintro ⟨name, entry⟩ member
  obtain ⟨text, known, -⟩ := (holds.held name entry).mp member
  exact holds.short name text known

variable (holds : HoldsFiles tree directory place texts) (covers : tree.Covers directory)
  (nonempty : directory ≠ "") (fits : Fits directory name)

include holds covers nonempty fits

theorem find_child :
    tree.find (FilePath.child directory name) =
      match texts name with
      | some text => .ok (place ++ [name], .file text)
      | none => .error .notFound := by
  have located := locate_child covers nonempty fits holds.located holds.isDirectory
  rw [find_of_located located, holds.lookup name]
  cases texts name <;> rfl

theorem exists?_child :
    tree.exists? (FilePath.child directory name) =
      .ok (isNameable (FilePath.child directory name) && (texts name).isSome) := by
  unfold FileTree.exists?
  rw [holds.find_child covers nonempty fits]
  cases isNameable (FilePath.child directory name) with
  | false => rfl
  | true => cases texts name <;> rfl

variable (nameable : isNameable (FilePath.child directory name) = true)

include nameable

theorem source_child {text : String} (held : texts name = some text) :
    tree.source (FilePath.child directory name) = .ok (place ++ [name], text) := by
  unfold source checkNameable
  rw [if_pos nameable, holds.find_child covers nonempty fits, held]
  rfl

theorem read_child {text : String} (held : texts name = some text) :
    tree.read (FilePath.child directory name) = .ok text := by
  rw [read, holds.source_child covers nonempty fits nameable held]
  rfl

theorem unlink_child {text : String} (held : texts name = some text) :
    tree.unlink (FilePath.child directory name) = .ok (tree.drop (place ++ [name])) := by
  rw [unlink, holds.source_child covers nonempty fits nameable held]
  rfl

theorem target_child :
    ∃ before, tree.target (FilePath.child directory name) = .ok (place ++ [name], before) := by
  have located := locate_child covers nonempty fits holds.located holds.isDirectory
  have here := holds.lookup name
  unfold target checkNameable
  rw [if_pos nameable, located]
  cases held : texts name with
  | none =>
      rw [held] at here
      exact ⟨"", by simp [here, bind, Except.bind]⟩
  | some text =>
      rw [held] at here
      exact ⟨text, by simp [here, bind, Except.bind]⟩

theorem write_child (text : String) :
    tree.write (FilePath.child directory name) text =
      .ok (tree.put (place ++ [name]) (.file text)) := by
  obtain ⟨before, reached⟩ := holds.target_child covers nonempty fits nameable
  rw [write, reached]
  rfl

theorem rename_child {source text : String} (sourceFits : Fits directory source)
    (sourceNameable : isNameable (FilePath.child directory source) = true)
    (held : texts source = some text) :
    tree.rename (FilePath.child directory source) (FilePath.child directory name) =
      .ok ((tree.drop (place ++ [source])).put (place ++ [name]) (.file text)) := by
  have taken := holds.source_child covers nonempty sourceFits sourceNameable held
  obtain ⟨before, reached⟩ := holds.target_child covers nonempty fits nameable
  apply Outcome.bind_ok_iff.mpr
  refine ⟨_, taken, ?_⟩
  apply Outcome.bind_ok_iff.mpr
  exact ⟨_, reached, rfl⟩

end HoldsFiles

/-- A directory that is empty, or absent and can be made. -/
def IsVacant (tree : FileTree) (directory : String) : Prop :=
  ∃ made, tree.makeDirectories directory = (made, .ok ()) ∧ made.children directory = .ok []

theorem holdsFiles_of_no_children {path : String} (none : tree.children path = .ok []) :
    ∃ place, HoldsFiles tree path place fun _ => Option.none := by
  cases located : tree.locate path with
  | error fault =>
      rw [children, find_of_not_located located] at none
      cases none
  | ok place =>
      cases here : tree.entry? place with
      | none =>
          rw [children, find_of_located located, here] at none
          cases none
      | some entry =>
          cases entry with
          | directory =>
              rw [children_eq_childrenAt located here] at none
              have empty : tree.childrenAt place = [] := Except.ok.inj none
              exact ⟨place, located, here, by simp [empty], by simp [empty], nofun⟩
          | file text =>
              rw [children, find_of_located located, here] at none
              cases none

/-- An absent directory is vacant when the directory above it is there and nothing is recorded
below. -/
theorem isVacant_of_absent (normal : FilePath.normalize directory = directory)
    (nameable : isNameable directory = true) (located : tree.locate directory = .ok place)
    (absent : tree.entry? place = none) (empty : tree.childrenAt place = []) :
    tree.IsVacant directory := by
  have deep := deep_of_absent absent
  have makes : tree.makeDirectory directory = .ok (tree.put place .directory) :=
    makeDirectory_eq_ok_iff.mpr ⟨place, located, absent, rfl⟩
  have known : tree.makeDirectory directory ≠ .error .notFound := by
    rw [makes]
    exact fun same => by cases same
  have madeLocated :=
    locate_of_directories root_put (directory_kept_put_directory deep) located
  have madeDirectory : FileTree.entry? (tree.put place .directory) place = some .directory := by
    rw [lookup_put deep, if_pos rfl]
  refine ⟨tree.put place .directory, ?_, ?_⟩
  · rw [makeDirectories_eq_ensureDirectory normal nameable known, ensureDirectory, makes]
  · have shorter : place.dropLast ≠ place := by
      intro same
      have lengths := congrArg List.length same
      rw [List.length_dropLast] at lengths
      have positive := List.length_pos_iff.mpr deep
      omega
    have notOwn : childOf place (place, .directory) = none := by
      simp [childOf, shorter]
    rw [children_eq_childrenAt madeLocated madeDirectory, childrenAt, put, absent]
    rw [childrenAt] at empty
    simp [List.filterMap_append, empty, notOwn]

end Tables

end WebHarvest.FileTree
