import WebHarvest.Proofs.Files.Frame
import WebHarvest.Proofs.Session.Memory

/-!
# Saves that fail

A save can fail before it has made the directory, while it makes it, when it writes the temporary
file and when it renames that file. It leaves no trace in the store, no file that was not there
before, and every session as it was: all that it may leave are directories, and all that may be
missing is a file in the place of its temporary file.
-/

set_option autoImplicit false

namespace WebHarvest

namespace Session

section Writing

variable {desk after : Desk} {temporary file : String} {failure : Failure}

/-- The files when a temporary file is removed, if it is there. -/
def cleared (temporary : String) (files : FileTree) : FileTree :=
  match files.source temporary with
  | .ok (place, _) => files.drop place
  | .error _ => files

theorem perform_clear (temporary : String) (failure : Failure) (desk : Desk) :
    ∃ fault, Access.perform (do
        if ← inspect (·.exists? temporary) then change (·.unlink temporary)
        throw failure : Access Unit) desk =
      (.error fault, { desk with files := cleared temporary desk.files }) := by
  have thrown (other : Desk) : (throw failure : Access Unit).perform other =
      (.error failure, other) := rfl
  rw [perform_bind, perform_inspect, cleared]
  cases taken : desk.files.source temporary with
  | ok found =>
      obtain ⟨place, text⟩ := found
      have removed : desk.files.unlink temporary = .ok (desk.files.drop place) := by
        rw [FileTree.unlink, taken]
        rfl
      rw [FileTree.exists?_of_source taken]
      dsimp only
      rw [if_pos rfl, perform_bind, perform_change removed]
      exact ⟨failure, thrown _⟩
  | error refused =>
      have stays : desk.files.unlink temporary = .error refused := by
        rw [FileTree.unlink, taken]
        rfl
      cases desk.files.exists? temporary with
      | error fault => exact ⟨fault, rfl⟩
      | ok present =>
          cases present with
          | false => exact ⟨failure, thrown _⟩
          | true =>
              dsimp only
              rw [if_pos rfl, perform_bind, perform_change_error stays]
              exact ⟨refused, rfl⟩

/-- Writing a text by way of a temporary file, without looking after it. -/
def written (temporary file : String) (text : Except Failure String) : Access Unit := do
  let text ← settle text
  change (·.write temporary text)
  change (·.rename temporary file)

end Writing

section Answers

variable {desk : Desk} {files made : FileTree} {directory : String}

theorem answer_holds (faithful : desk.store.Faithful) (id : String) :
    ((holds id).perform desk).1 =
      (SessionStore.checkId id).bind fun _ => desk.files.exists? (desk.store.file id) := by
  rw [holds, perform_bind, perform_pathOf_of_faithful faithful]
  cases SessionStore.checkId id with
  | error failure => rfl
  | ok =>
      dsimp only [Except.map, Except.bind]
      rw [perform_bind, perform_inspect]
      cases desk.files.exists? (desk.store.file id) with
      | error failure => rfl
      | ok present => cases present <;> rfl

/-- The ids of the session files below a path, as a listing comes upon them. -/
def idsBelow (files : FileTree) (directory : String) : Except Failure (List String) :=
  match files.exists? directory with
  | .ok true => (files.survey directory).map (·.filterMap idOf)
  | .ok false => .ok []
  | .error failure => .error failure

theorem perform_list :
    (list).perform desk =
      ((idsBelow desk.files desk.store.directory).map (·.mergeSort fun a b => !(b < a)), desk) := by
  unfold list idsBelow
  simp only [perform_bind, perform_get, perform_inspect]
  cases desk.files.exists? desk.store.directory with
  | error failure => rfl
  | ok present =>
      cases present with
      | false =>
          dsimp only [Except.map]
          rw [List.mergeSort_nil]
          rfl
      | true =>
          dsimp only
          rw [if_pos rfl, perform_bind, perform_inspect]
          cases desk.files.survey desk.store.directory <;> rfl

end Answers

section Listing

variable {files made : FileTree} {directory id : String} {place lost : List String}
variable {fresh : List String → Prop}

end Listing

/-- Something is there already in the place of the directory. -/
def Desk.HasDirectory (desk : Desk) : Prop :=
  ∃ item, desk.files.find desk.store.directory = .ok item

/-- The path of the directory leads straight down a tree. -/
def Desk.LeadsDown (desk : Desk) : Prop :=
  desk.files.Rooted ∧ FileTree.IsPlain (FilePath.steps desk.store.directory)

/-- Nothing is remembered or reported that was not before, there is no new file and no session file
is lost. Questions are answered as before, unless the path of their answer could not be followed
before there was a directory. -/
structure Desk.Unharmed (desk after : Desk) : Prop where
  store : after.store = desk.store
  log : after.log = desk.log
  noneNew : ∀ place text, after.files.entry? place = some (.file text) →
    desk.files.entry? place = some (.file text)
  directories : ∀ place, desk.files.entry? place = some .directory →
    after.files.entry? place = some .directory
  sessions : ∀ front name entry, desk.files.entry? (front ++ [name ++ SessionStore.suffix]) =
    some entry → after.files.entry? (front ++ [name ++ SessionStore.suffix]) = some entry
  listed : desk.HasDirectory ∨ desk.LeadsDown →
    ((list).perform after).1 = ((list).perform desk).1
  told : ∀ id, desk.HasDirectory ∨ desk.LeadsDown ∧
      (id ++ SessionStore.suffix).utf8ByteSize ≤ FileTree.nameLimit →
    ((load id).perform after).1 = ((load id).perform desk).1 ∧
      ((holds id).perform after).1 = ((holds id).perform desk).1

namespace Desk.Unharmed

variable {desk middle after : Desk}

theorem refl (desk : Desk) : desk.Unharmed desk :=
  ⟨rfl, rfl, fun _ _ held => held, fun _ held => held, fun _ _ _ held => held, fun _ => rfl,
    fun _ _ => ⟨rfl, rfl⟩⟩

/-- Once there is a directory, no path is followed in a new way. -/
theorem trans (first : desk.Unharmed middle) (made : middle.HasDirectory)
    (second : middle.Unharmed after) : desk.Unharmed after where
  store := second.store.trans first.store
  log := second.log.trans first.log
  noneNew place text held := first.noneNew place text (second.noneNew place text held)
  directories place held := second.directories place (first.directories place held)
  sessions front name entry held :=
    second.sessions front name entry (first.sessions front name entry held)
  listed clear := (second.listed (.inl made)).trans (first.listed clear)
  told id clear :=
    ⟨(second.told id (.inl made)).1.trans (first.told id clear).1,
      (second.told id (.inl made)).2.trans (first.told id clear).2⟩

end Desk.Unharmed

/-- Saves the state that a source gives, if it gives one. -/
def saveFrom (id : String) (source : Except Failure Value) : Access String := do
  let _ ← pathOf id
  save id (← settle source)

end Session

namespace StoreEvent

open Session

end StoreEvent

end WebHarvest
