import WebHarvest.Proofs.Files.Frame

/-!
# Files beside each other

Writing a file, removing one or moving one takes no other path its file, and leaves every path
writable that was. Only a path that leads to the same place is told of it.
-/

set_option autoImplicit false

namespace WebHarvest.FileTree

variable {tree after : FileTree} {path other : String} {place there : List String}
  {text before : String}

/-- A file can be written under a path. -/
def IsWritable (tree : FileTree) (path : String) : Prop :=
  ∃ place before, tree.target path = .ok (place, before)

/-- Two paths lead to one place. -/
def Meet (tree : FileTree) (path other : String) : Prop :=
  ∃ place, tree.locate path = .ok place ∧ tree.locate other = .ok place

theorem isWritable_iff :
    tree.IsWritable path ↔ isNameable path = true ∧
      ∃ place, tree.locate path = .ok place ∧ tree.entry? place ≠ some .directory := by
  constructor
  · rintro ⟨place, before, reached⟩
    obtain ⟨nameable, located, -⟩ := target_eq_ok_iff.mp reached
    exact ⟨nameable, place, located, notDirectory_of_target reached⟩
  · rintro ⟨nameable, place, located, notDirectory⟩
    cases held : tree.entry? place with
    | none => exact ⟨place, "", target_eq_ok_iff.mpr ⟨nameable, located, .inl ⟨held, rfl⟩⟩⟩
    | some entry =>
        cases entry with
        | directory => exact absurd held notDirectory
        | file text => exact ⟨place, text, target_eq_ok_iff.mpr ⟨nameable, located, .inr held⟩⟩

theorem IsWritable.write (writable : tree.IsWritable path) (text : String) :
    ∃ after, tree.write path text = .ok after := by
  obtain ⟨place, before, reached⟩ := writable
  exact ⟨_, write_of_target reached text⟩

/-- What can be written still can when a file is put somewhere. -/
theorem IsWritable.put (writable : tree.IsWritable other)
    (reached : tree.target path = .ok (place, before)) (text : String) :
    FileTree.IsWritable (tree.put place (.file text)) other := by
  obtain ⟨nameable, there, located, notDirectory⟩ := isWritable_iff.mp writable
  refine isWritable_iff.mpr ⟨nameable, there, ?_, ?_⟩
  · exact locate_of_directories root_put (directory_kept_put_file reached text) located
  · rw [lookup_put (deep_of_target reached)]
    split
    · nofun
    · exact notDirectory

/-- A path can be written in the same place when a file is removed somewhere. -/
theorem target_drop (reached : tree.target path = .ok (place, before))
    (removed : tree.target other = .ok (there, text)) :
    ∃ left, (tree.drop there).target path = .ok (place, left) := by
  have deep := deep_of_target removed
  obtain ⟨nameable, located, held⟩ := target_eq_ok_iff.mp reached
  have stays := locate_of_directories root_drop
    (directory_kept_drop (notDirectory_of_target removed) deep) located
  by_cases here : place = there
  · refine ⟨"", target_eq_ok_iff.mpr ⟨nameable, stays, .inl ⟨?_, rfl⟩⟩⟩
    rw [lookup_drop deep, if_pos here]
  · refine ⟨before, target_eq_ok_iff.mpr ⟨nameable, stays, ?_⟩⟩
    rwa [lookup_drop deep, if_neg here]

theorem IsWritable.drop (writable : tree.IsWritable path)
    (removed : tree.target other = .ok (there, text)) : (tree.drop there).IsWritable path := by
  obtain ⟨place, before, reached⟩ := writable
  obtain ⟨left, stays⟩ := target_drop reached removed
  exact ⟨place, left, stays⟩

/-- Writing a file makes no path unwritable. -/
theorem IsWritable.after_write (writable : tree.IsWritable path)
    (wrote : tree.write other text = .ok after) : after.IsWritable path := by
  obtain ⟨⟨there, before⟩, reached, same⟩ := Outcome.bind_ok_iff.mp wrote
  cases same
  exact writable.put reached text

section Moving

variable {source : String}

theorem IsWritable.rename (writable : tree.IsWritable path)
    (taken : tree.source source = .ok (place, text)) :
    ∃ after, tree.rename source path = .ok after := by
  obtain ⟨there, before, reached⟩ := writable
  refine ⟨(tree.drop place).put there (.file text), ?_⟩
  exact Outcome.bind_ok_iff.mpr ⟨_, taken, Outcome.bind_ok_iff.mpr ⟨_, reached, rfl⟩⟩

theorem IsWritable.after_rename (writable : tree.IsWritable path)
    (renamed : tree.rename source other = .ok after) : after.IsWritable path := by
  obtain ⟨⟨old, content⟩, taken, rest⟩ := Outcome.bind_ok_iff.mp renamed
  obtain ⟨⟨place, before⟩, reached, same⟩ := Outcome.bind_ok_iff.mp rest
  cases same
  obtain ⟨left, stays⟩ := target_drop reached (target_of_source taken)
  exact (writable.drop (target_of_source taken)).put stays content

/-- A file that has been moved is found under its new path. -/
theorem source_of_rename (renamed : tree.rename source path = .ok after)
    (held : tree.read source = .ok text) : ∃ place, after.source path = .ok (place, text) := by
  obtain ⟨⟨old, content⟩, taken, rest⟩ := Outcome.bind_ok_iff.mp renamed
  obtain ⟨⟨place, before⟩, reached, same⟩ := Outcome.bind_ok_iff.mp rest
  cases same
  obtain rfl : content = text := by
    rw [FileTree.read, taken] at held
    exact Except.ok.inj held
  obtain ⟨left, further⟩ := target_drop reached (target_of_source taken)
  obtain ⟨again, present⟩ := target_put further content
  exact ⟨place, source_of_target again present⟩

end Moving

/-- A file is still found after a write under a path that leads elsewhere. -/
theorem source_of_write_beside (taken : tree.source path = .ok (place, text))
    (wrote : tree.write other before = .ok after) (apart : ¬ after.Meet other path) :
    after.source path = .ok (place, text) := by
  obtain ⟨⟨there, content⟩, reached, same⟩ := Outcome.bind_ok_iff.mp wrote
  cases same
  obtain ⟨nameable, found⟩ := source_eq_ok_iff.mp taken
  obtain ⟨located, held⟩ := find_eq_ok_iff.mp found
  have locatedStill := locate_of_directories root_put (directory_kept_put_file reached before) located
  obtain ⟨again, -⟩ := target_put reached before
  obtain ⟨-, locatedOther, -⟩ := target_eq_ok_iff.mp again
  have elsewhere : place ≠ there := by
    rintro rfl
    exact apart ⟨place, locatedOther, locatedStill⟩
  refine source_eq_ok_iff.mpr ⟨nameable, find_eq_ok_iff.mpr ⟨locatedStill, ?_⟩⟩
  rw [lookup_put (deep_of_target reached), if_neg elsewhere, held]

/-- A file is not met under another name. -/
theorem not_meet_of_read {directory above own name : String} (isName : FilePath.IsName own)
    (otherIsName : FilePath.IsName name) (ne : own ≠ name)
    (reads : tree.read (FilePath.child directory own) = .ok text) :
    ¬ tree.Meet (FilePath.child directory own) (FilePath.child above name) := by
  rintro ⟨place, located, locatedOther⟩
  obtain ⟨⟨there, content⟩, taken, -⟩ := Outcome.bind_ok_iff.mp reads
  have reached := target_of_source taken
  obtain rfl : there = place :=
    Except.ok.inj ((target_eq_ok_iff.mp reached).2.1.symm.trans located)
  have deep := deep_of_target reached
  have last := (getLast?_of_locate isName located).resolve_left deep
  have lastOther := (getLast?_of_locate otherIsName locatedOther).resolve_left deep
  exact ne (Option.some.inj (last.symm.trans lastOther))

end WebHarvest.FileTree
