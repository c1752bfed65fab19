import WebHarvest.Proofs.Files.Frame

/-!
# Trees stay rooted

Every operation on files leaves each entry in a directory: what it puts lies in a directory, because
the way to it does, and what it drops is a file, in which nothing lies.
-/

set_option autoImplicit false

namespace WebHarvest.FileTree

namespace Rooted

variable {tree made : FileTree} {place : List String} {path before : String}

/-- A tree without entries. -/
theorem empty {root : String} (absolute : FilePath.anchor root ≠ "") : Rooted { root } where
  absolute := absolute
  inside _ member := absurd member List.not_mem_nil

/-- Wherever a way leads, it is in a directory, also when it goes back to parents. -/
theorem above_walk (rooted : tree.Rooted) {reached steps : List String}
    (begins : tree.entry? reached.dropLast = some .directory)
    (walked : tree.walk reached steps = .ok place) :
    tree.entry? place.dropLast = some .directory := by
  induction steps generalizing reached with
  | nil =>
      cases walked
      exact begins
  | cons step rest ih =>
      rw [FileTree.walk] at walked
      split at walked
      · cases walked
      · cases walked
      · rename_i here
        split at walked
        · exact ih (rooted.above (rooted.above here)) walked
        · split at walked
          · cases walked
          · refine ih ?_ walked
            rw [List.dropLast_concat, here]

theorem above_located (rooted : tree.Rooted) (located : tree.locate path = .ok place) :
    tree.entry? place.dropLast = some .directory :=
  rooted.above_walk rfl (locate_eq_ok_iff.mp located).2

theorem put (rooted : tree.Rooted) {entry : FileEntry} (deep : place ≠ [])
    (notDirectory : tree.entry? place ≠ some .directory)
    (above : tree.entry? place.dropLast = some .directory) : (tree.put place entry).Rooted where
  absolute := by
    rw [root_put]
    exact rooted.absolute
  inside := by
    have stays : ∀ p, tree.entry? p = some .directory →
        FileTree.entry? (tree.put place entry) p = some .directory := by
      intro p held
      rw [lookup_put deep, if_neg, held]
      rintro rfl
      exact notDirectory held
    rintro ⟨other, found⟩ member
    rw [mem_put deep] at member
    split at member
    · rename_i here
      exact stays _ (here ▸ above)
    · exact stays _ (rooted.inside _ member)

theorem drop (rooted : tree.Rooted) (deep : place ≠ [])
    (notDirectory : tree.entry? place ≠ some .directory) : (tree.drop place).Rooted where
  absolute := rooted.absolute
  inside item member := directory_kept_drop notDirectory deep item.1.dropLast
    (rooted.inside item (List.mem_filter.mp member).1)

section Files

theorem fill (rooted : tree.Rooted) (reached : tree.target path = .ok (place, before))
    (text : String) : (tree.put place (.file text)).Rooted := by
  obtain ⟨-, located, -⟩ := target_eq_ok_iff.mp reached
  exact rooted.put (deep_of_target reached) (notDirectory_of_target reached)
    (rooted.above_located located)

theorem write (rooted : tree.Rooted) {text : String} (written : tree.write path text = .ok made) :
    made.Rooted := by
  obtain ⟨⟨place, before⟩, reached, same⟩ := Outcome.bind_ok_iff.mp written
  cases same
  exact rooted.fill reached text

theorem append (rooted : tree.Rooted) {text : String}
    (appended : tree.append path text = .ok made) : made.Rooted := by
  obtain ⟨⟨place, before⟩, reached, same⟩ := Outcome.bind_ok_iff.mp appended
  cases same
  exact rooted.fill reached _

theorem unlink (rooted : tree.Rooted) (removed : tree.unlink path = .ok made) : made.Rooted := by
  obtain ⟨⟨place, before⟩, taken, same⟩ := Outcome.bind_ok_iff.mp removed
  cases same
  have reached := target_of_source taken
  exact rooted.drop (deep_of_target reached) (notDirectory_of_target reached)

theorem rename (rooted : tree.Rooted) {source : String}
    (renamed : tree.rename source path = .ok made) : made.Rooted := by
  obtain ⟨⟨old, text⟩, taken, rest⟩ := Outcome.bind_ok_iff.mp renamed
  obtain ⟨⟨place, before⟩, reached, same⟩ := Outcome.bind_ok_iff.mp rest
  cases same
  have begins := target_of_source taken
  have deepOld := deep_of_target begins
  have notDirectory := notDirectory_of_target begins
  obtain ⟨-, located, -⟩ := target_eq_ok_iff.mp reached
  refine (rooted.drop deepOld notDirectory).put (deep_of_target reached) ?_ ?_
  · rw [lookup_drop deepOld]
    split
    · rintro ⟨⟩
    · exact notDirectory_of_target reached
  · exact directory_kept_drop notDirectory deepOld _ (rooted.above_located located)

end Files

section Directories

theorem makeDirectory (rooted : tree.Rooted) (done : tree.makeDirectory path = .ok made) :
    made.Rooted := by
  obtain ⟨place, located, vacant, rfl⟩ := makeDirectory_eq_ok_iff.mp done
  refine rooted.put (deep_of_absent vacant) ?_ (rooted.above_located located)
  rw [vacant]
  rintro ⟨⟩

theorem ensureDirectory (rooted : tree.Rooted) (path : String) :
    (tree.ensureDirectory path).1.Rooted := by
  unfold FileTree.ensureDirectory
  split
  · rename_i done
    exact rooted.makeDirectory done
  · exact rooted
  · exact rooted

/-- Also when only some of the directories could be made. -/
theorem makeAlong (rooted : tree.Rooted) (anchor : String) (names : List String) :
    (FileTree.makeAlong anchor names tree).1.Rooted := by
  induction names with
  | nil => exact rooted.ensureDirectory _
  | cons step above ih =>
      rw [FileTree.makeAlong]
      split
      · split
        · rename_i climbed
          rw [climbed] at ih
          exact ih.ensureDirectory _
        · rename_i climbed
          rw [climbed] at ih
          exact ih
      · exact rooted.ensureDirectory _

theorem makeDirectories (rooted : tree.Rooted) (path : String) :
    (tree.makeDirectories path).1.Rooted := by
  unfold FileTree.makeDirectories
  split
  · exact rooted
  · exact rooted.makeAlong _ _

end Directories

end Rooted

end WebHarvest.FileTree
