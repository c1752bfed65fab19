import WebHarvest.Proofs.Files.Tree

/-!
# Appending to a file

A path whose file can be written stays so: what is appended stands behind what was there before,
again and again.
-/

set_option autoImplicit false

namespace WebHarvest.FileTree

variable {tree : FileTree} {path : String} {place : List String} {before : String}

theorem target_of_located (nameable : isNameable path = true)
    (located : tree.locate path = .ok place) :
    tree.target path = match tree.entry? place with
      | none => .ok (place, "")
      | some (.file text) => .ok (place, text)
      | some .directory => refused path .isADirectory := by
  unfold target checkNameable
  rw [if_pos nameable, located]
  rfl

theorem target_ordinary {failure : Failure} (fails : tree.target path = .error failure) :
    failure.isOrdinary = true := by
  cases nameable : isNameable path with
  | false =>
      unfold target checkNameable at fails
      rw [nameable] at fails
      cases fails
      rfl
  | true =>
      cases located : tree.locate path with
      | error fault =>
          unfold target checkNameable at fails
          rw [if_pos nameable, located] at fails
          cases fails
          rfl
      | ok place =>
          rw [target_of_located nameable located] at fails
          cases held : tree.entry? place with
          | none =>
              rw [held] at fails
              cases fails
          | some entry =>
              rw [held] at fails
              cases entry with
              | file text => cases fails
              | directory =>
                  cases fails
                  rfl

/-- A file can be written when the way to it is there and no directory stands in its place. -/
theorem target_eq_ok_iff :
    tree.target path = .ok (place, before) ↔
      isNameable path = true ∧ tree.locate path = .ok place ∧
        (tree.entry? place = none ∧ before = "" ∨ tree.entry? place = some (.file before)) := by
  constructor
  · intro reached
    cases nameable : isNameable path with
    | false =>
        unfold target checkNameable at reached
        rw [nameable] at reached
        cases reached
    | true =>
        cases located : tree.locate path with
        | error fault =>
            unfold target checkNameable at reached
            rw [if_pos nameable, located] at reached
            cases reached
        | ok found =>
            rw [target_of_located nameable located] at reached
            cases here : tree.entry? found with
            | none =>
                rw [here] at reached
                cases reached
                exact ⟨rfl, rfl, .inl ⟨here, rfl⟩⟩
            | some entry =>
                rw [here] at reached
                cases entry with
                | directory => cases reached
                | file text =>
                    cases reached
                    exact ⟨rfl, rfl, .inr here⟩
  · rintro ⟨nameable, located, ⟨absent, rfl⟩ | held⟩
    · rw [target_of_located nameable located, absent]
    · rw [target_of_located nameable located, held]

theorem deep_of_target (reached : tree.target path = .ok (place, before)) : place ≠ [] := by
  obtain ⟨-, -, held⟩ := target_eq_ok_iff.mp reached
  rintro rfl
  rcases held with ⟨absent, -⟩ | held
  · cases absent
  · cases held

theorem notDirectory_of_target (reached : tree.target path = .ok (place, before)) :
    tree.entry? place ≠ some .directory := by
  obtain ⟨-, -, ⟨absent, -⟩ | held⟩ := target_eq_ok_iff.mp reached
  · rw [absent]
    rintro ⟨⟩
  · rw [held]
    rintro ⟨⟩

theorem directory_kept_put_file (reached : tree.target path = .ok (place, before)) (text : String)
    (p : List String) (isDirectory : tree.entry? p = some .directory) :
    FileTree.entry? (tree.put place (.file text)) p = some .directory := by
  rw [lookup_put (deep_of_target reached), if_neg, isDirectory]
  rintro rfl
  exact notDirectory_of_target reached isDirectory

/-- A file that can be written can still be, and is read, once it is there. -/
theorem target_put (reached : tree.target path = .ok (place, before)) (text : String) :
    FileTree.target (tree.put place (.file text)) path = .ok (place, text) ∧
      FileTree.entry? (tree.put place (.file text)) place = some (.file text) := by
  have here : FileTree.entry? (tree.put place (.file text)) place = some (.file text) := by
    rw [lookup_put (deep_of_target reached), if_pos rfl]
  obtain ⟨nameable, located, -⟩ := target_eq_ok_iff.mp reached
  have kept := locate_of_directories root_put (directory_kept_put_file reached text) located
  exact ⟨target_eq_ok_iff.mpr ⟨nameable, kept, .inr here⟩, here⟩

theorem append_of_target (reached : tree.target path = .ok (place, before)) (text : String) :
    ∃ after, tree.append path text = .ok after ∧
      after.target path = .ok (place, before ++ text) ∧
      after.entry? place = some (.file (before ++ text)) := by
  refine ⟨tree.put place (.file (before ++ text)), ?_, target_put reached _⟩
  rw [append, reached]
  rfl

theorem write_of_target (reached : tree.target path = .ok (place, before)) (text : String) :
    tree.write path text = .ok (tree.put place (.file text)) := by
  rw [write, reached]
  rfl

theorem source_eq_ok_iff {text : String} :
    tree.source path = .ok (place, text) ↔
      isNameable path = true ∧ tree.find path = .ok (place, .file text) := by
  unfold source checkNameable
  cases isNameable path with
  | false => exact ⟨nofun, nofun⟩
  | true =>
      rw [if_pos rfl]
      cases tree.find path with
      | error fault => exact ⟨nofun, nofun⟩
      | ok item =>
          obtain ⟨there, entry⟩ := item
          cases entry with
          | directory => exact ⟨nofun, nofun⟩
          | file known =>
              refine ⟨fun taken => ?_, fun found => ?_⟩
              · cases taken
                exact ⟨rfl, rfl⟩
              · cases found.2
                rfl

theorem source_of_target (reached : tree.target path = .ok (place, before))
    (held : tree.entry? place = some (.file before)) :
    tree.source path = .ok (place, before) := by
  obtain ⟨nameable, located, -⟩ := target_eq_ok_iff.mp reached
  exact source_eq_ok_iff.mpr ⟨nameable, find_eq_ok_iff.mpr ⟨located, held⟩⟩

theorem target_of_source (taken : tree.source path = .ok (place, before)) :
    tree.target path = .ok (place, before) := by
  obtain ⟨nameable, found⟩ := source_eq_ok_iff.mp taken
  obtain ⟨located, held⟩ := find_eq_ok_iff.mp found
  exact target_eq_ok_iff.mpr ⟨nameable, located, .inr held⟩

theorem exists?_of_source (taken : tree.source path = .ok (place, before)) :
    tree.exists? path = .ok true := by
  obtain ⟨nameable, found⟩ := source_eq_ok_iff.mp taken
  unfold FileTree.exists?
  rw [nameable, found]
  rfl

theorem read_of_target (reached : tree.target path = .ok (place, before))
    (held : tree.entry? place = some (.file before)) : tree.read path = .ok before := by
  rw [read, source_of_target reached held]
  rfl

theorem read_of_write {after : FileTree} {text : String}
    (wrote : tree.write path text = .ok after) : after.read path = .ok text := by
  cases reached : tree.target path with
  | error failure =>
      rw [write, reached] at wrote
      cases wrote
  | ok item =>
      obtain ⟨place, before⟩ := item
      rw [write_of_target reached] at wrote
      cases wrote
      obtain ⟨again, held⟩ := target_put reached text
      exact read_of_target again held

theorem read_of_nonempty (reached : tree.target path = .ok (place, before))
    (nonempty : before ≠ "") : tree.read path = .ok before := by
  obtain ⟨-, -, ⟨-, empty⟩ | held⟩ := target_eq_ok_iff.mp reached
  · exact absurd empty nonempty
  · exact read_of_target reached held

end WebHarvest.FileTree
