import WebHarvest.Proofs.Files.Beside
import WebHarvest.Proofs.Session.Mishap
import WebHarvest.Proofs.Session.Text

/-!
# Saves that succeed

A save succeeds when the state can be written and the files take it. Then the store remembers the
file of the session, and the text of the state is in it, until somebody writes to that very file.
-/

set_option autoImplicit false

namespace WebHarvest

theorem SessionStore.pathOf_remember (store : SessionStore) (id path : String) :
    (store.remember id path).pathOf id = path := by
  unfold SessionStore.remember SessionStore.pathOf
  split
  · rename_i known
    have sameKey : ((fun entry : String × String => entry.1 == id) ∘ fun (i, p) =>
        if i == id then (i, path) else (i, p)) = fun entry => entry.1 == id := by
      funext entry
      simp only [Function.comp]
      split
      · rfl
      · rfl
    obtain ⟨entry, found⟩ :=
      Option.isSome_iff_exists.mp (List.find?_isSome.mpr (List.any_eq_true.mp known))
    have here := List.find?_some found
    rw [List.find?_map, sameKey, found]
    simp only [Option.map_some, here, if_true, Option.getD_some]
  · rename_i unknown
    have absent : store.index.find? (fun entry => entry.1 == id) = none :=
      List.find?_eq_none.mpr (List.any_eq_false.mp (Bool.eq_false_of_not_eq_true unknown))
    rw [List.find?_append, absent]
    simp

/-- A value gives a state that can be written. -/
def SessionState.IsSavable (value : Value) : Prop :=
  ∃ state text, SessionState.ofValue value = .ok state ∧ state.text = .ok text

namespace Session

/-- The directory of the store can be made, and then its temporary file and its session file can be
written. -/
def Desk.Takes (desk : Desk) (id : String) : Prop :=
  ∃ made, desk.files.makeDirectories desk.store.directory = (made, .ok ()) ∧
    made.IsWritable (desk.store.temporary id) ∧ made.IsWritable (desk.store.file id)

/-- The file that the store remembers for an id holds the text of the state that a value gives. -/
def Desk.Keeps (desk : Desk) (id : String) (value : Value) : Prop :=
  ∃ state text place, SessionState.ofValue value = .ok state ∧ state.text = .ok text ∧
    desk.files.source (desk.store.pathOf id) = .ok (place, text)

section Writing

variable {desk after : Desk} {temporary file : String} {text : Except Failure String}

theorem change_of_ok {edit : FileTree → Except Failure FileTree}
    (done : (change edit).perform desk = (.ok (), after)) :
    ∃ files, edit desk.files = .ok files ∧ after = { desk with files } := by
  cases edited : edit desk.files with
  | error failure =>
      rw [perform_change_error edited] at done
      cases done
  | ok files =>
      rw [perform_change edited] at done
      exact ⟨files, rfl, (Prod.mk.inj done).2.symm⟩

theorem written_of_ok (done : (written temporary file text).perform desk = (.ok (), after)) :
    ∃ content files, text = .ok content ∧ after = { desk with files } ∧
      (∃ place, files.source file = .ok (place, content)) ∧
      ∀ path, desk.files.IsWritable path → files.IsWritable path := by
  obtain ⟨content, middle, given, done⟩ := ok_of_bind done
  obtain ⟨rfl, rfl⟩ := Prod.mk.inj given
  obtain ⟨⟨⟩, middle, writes, renames⟩ := ok_of_bind done
  obtain ⟨between, wrote, rfl⟩ := change_of_ok writes
  obtain ⟨files, renamed, rfl⟩ := change_of_ok renames
  exact ⟨content, files, rfl, rfl,
    FileTree.source_of_rename renamed (FileTree.read_of_write wrote),
    fun path writable => (writable.after_write wrote).after_rename renamed⟩

theorem writeWhole_of_ok (done : (writeWhole temporary file text).perform desk = (.ok (), after)) :
    ∃ content files, text = .ok content ∧ after = { desk with files } ∧
      (∃ place, files.source file = .ok (place, content)) ∧
      ∀ path, desk.files.IsWritable path → files.IsWritable path := by
  rw [writeWhole, perform_bind, perform_lift, ← written] at done
  dsimp only at done
  cases ran : (written temporary file text).perform desk with
  | mk outcome middle =>
      rw [ran] at done
      cases outcome with
      | ok =>
          obtain rfl := (Prod.mk.inj done).2
          exact written_of_ok ran
      | error failure =>
          obtain ⟨fault, clears⟩ := perform_clear temporary failure middle
          cases clears.symm.trans done

/-- A text can be written by way of a temporary file when both files can be written. -/
theorem exists_writeWhole (content : String) (temporaryWritable : desk.files.IsWritable temporary)
    (fileWritable : desk.files.IsWritable file) :
    ∃ after, (writeWhole temporary file (.ok content)).perform desk = (.ok (), after) := by
  obtain ⟨place, before, reached⟩ := temporaryWritable
  obtain ⟨again, held⟩ := FileTree.target_put reached content
  obtain ⟨files, renamed⟩ :=
    (fileWritable.put reached content).rename (FileTree.source_of_target again held)
  have writes : (written temporary file (.ok content)).perform desk =
      (.ok (), { desk with files }) := by
    rw [written, perform_bind, perform_settle]
    dsimp only
    rw [perform_bind, perform_change (FileTree.write_of_target reached content)]
    exact perform_change renamed
  refine ⟨{ desk with files }, ?_⟩
  rw [writeWhole, perform_bind, perform_lift, ← written, writes]
  rfl

end Writing

section Saves

variable {desk after : Desk} {id path : String} {value : Value}

theorem exists_save (accepted : SessionStore.checkId id = .ok ()) (takes : desk.Takes id)
    (savable : SessionState.IsSavable value) :
    ∃ path after, (save id value).perform desk = (.ok path, after) := by
  obtain ⟨state, text, given, written⟩ := savable
  obtain ⟨made, done, temporaryWritable, fileWritable⟩ := takes
  let there : Desk := { desk with files := made }
  have makes : makeDirectory.perform desk = (.ok (), there) := by
    rw [perform_makeDirectory, done]
  obtain ⟨middle, writes⟩ : ∃ middle, (writeWhole (desk.store.temporary id) (desk.store.file id)
      (.ok text)).perform there = (.ok (), middle) :=
    exists_writeWhole text temporaryWritable fileWritable
  unfold Session.save
  simp only [perform_bind, perform_settle, accepted, given, perform_get, makes, written, writes,
    perform_modify, perform_report, perform_pure]
  exact ⟨_, _, rfl⟩

/-- A save that succeeds returns the path of the session's file, and keeps the state there. What can
be written once the directory is made can be written still. -/
theorem save_of_ok (saves : (save id value).perform desk = (.ok path, after)) :
    path = desk.store.file id ∧ after.store.pathOf id = path ∧ after.Keeps id value ∧
      ∀ other, FileTree.IsWritable (desk.files.makeDirectories desk.store.directory).1 other →
        after.files.IsWritable other := by
  obtain ⟨⟨⟩, middle, checked, saves⟩ := ok_of_bind saves
  obtain ⟨-, rfl⟩ := Prod.mk.inj checked
  obtain ⟨state, middle, valid, saves⟩ := ok_of_bind saves
  obtain ⟨given, rfl⟩ := Prod.mk.inj valid
  rw [perform_bind, perform_get] at saves
  obtain ⟨⟨⟩, middle, makes, saves⟩ := ok_of_bind saves
  rw [perform_makeDirectory] at makes
  obtain ⟨-, rfl⟩ := Prod.mk.inj makes
  obtain ⟨⟨⟩, middle, writes, saves⟩ := ok_of_bind saves
  obtain ⟨content, files, written, rfl, ⟨place, held⟩, writable⟩ := writeWhole_of_ok writes
  cases saves
  have remembered := SessionStore.pathOf_remember desk.store id (desk.store.file id)
  refine ⟨rfl, remembered, ⟨state, content, place, given, written, ?_⟩, writable⟩
  rw [remembered]
  exact held

/-- A kept session stays when something is written elsewhere. -/
theorem Desk.Keeps.write {other content : String} {files : FileTree} (keeps : desk.Keeps id value)
    (wrote : desk.files.write other content = .ok files)
    (apart : ¬ files.Meet other (desk.store.pathOf id)) :
    Desk.Keeps { desk with files } id value := by
  obtain ⟨state, text, place, given, written, held⟩ := keeps
  exact ⟨state, text, place, given, written, FileTree.source_of_write_beside held wrote apart⟩

/-- What is loaded is what the file under the remembered path holds. -/
theorem load_of_read {text : String} (accepted : SessionStore.checkId id = .ok ())
    (reads : desk.files.read (desk.store.pathOf id) = .ok text) :
    (load id).perform desk = (SessionState.ofText text, desk) := by
  obtain ⟨item, held, -⟩ := Outcome.bind_ok_iff.mp reads
  unfold Session.load
  simp only [perform_bind, perform_pathOf accepted, perform_inspect,
    FileTree.exists?_of_source held, if_true, reads, perform_settle]

theorem Desk.Keeps.load (keeps : desk.Keeps id value)
    (accepted : SessionStore.checkId id = .ok ()) : ∃ state text,
      SessionState.ofValue value = .ok state ∧ state.text = .ok text ∧
        (load id).perform desk = (SessionState.ofText text, desk) := by
  obtain ⟨state, text, place, given, written, held⟩ := keeps
  have reads : desk.files.read (desk.store.pathOf id) = .ok text :=
    Outcome.bind_ok_iff.mpr ⟨_, held, rfl⟩
  exact ⟨state, text, given, written, load_of_read accepted reads⟩

/-- A session of JSON data is loaded as it was saved. -/
theorem Desk.Keeps.load_of_data {entries : List (Value × Value)} {cookies origins : List Record}
    (keeps : desk.Keeps id (.map entries)) (accepted : SessionStore.checkId id = .ok ())
    (cookiesGiven : SessionState.Gives entries "cookies" cookies)
    (originsGiven : SessionState.Gives entries "origins" origins)
    (lossless : SessionState.IsLossless { cookies, origins }) :
    (Session.load id).perform desk = (.ok { cookies, origins }, desk) := by
  obtain ⟨state, text, given, written, loads⟩ := keeps.load accepted
  obtain ⟨content, writtenAgain, reads⟩ := lossless
  rw [SessionState.ofValue_of_given cookiesGiven originsGiven] at given
  obtain rfl := Except.ok.inj given
  obtain rfl := Except.ok.inj (written.symm.trans writtenAgain)
  rw [loads, reads]

end Saves

end Session

end WebHarvest
