import Mathlib.Data.List.Nodup
import WebHarvest.Proofs.Files.Table
import WebHarvest.Proofs.Session.State
import WebHarvest.Session.Store

/-!
# A store in a directory of its own

Before the first save the directory may be absent. From then on its files are the saved sessions:
the file of each id holds the text of its state, and nothing else is there. Each operation finds
this and leaves it so; a save or a deletion changes the state of its own id only.
-/

set_option autoImplicit false

namespace WebHarvest

namespace SessionStore

/-- An id that a store accepts, and whose file the file system takes. -/
structure FitsId (directory id : String) : Prop where
  accepted : checkId id = .ok ()
  nameShort : (id ++ suffix).utf8ByteSize ≤ FileTree.nameLimit
  pathShort : (FilePath.child directory (id ++ suffix)).utf8ByteSize < FileTree.pathLimit

theorem slash_not_mem_of_accepted {id : String} (accepted : checkId id = .ok ()) :
    '/' ∉ id.toList := by
  intro slash
  unfold checkId at accepted
  split at accepted
  · cases accepted
  · split at accepted
    · cases accepted
    · rename_i plain
      have present : id.toList.any (fun c => c == '/' || c == '\\') = true :=
        List.any_eq_true.mpr ⟨'/', slash, rfl⟩
      simp [present] at plain

theorem isName_append {id ending : String} (accepted : checkId id = .ok ())
    (single : '/' ∉ ending.toList) (long : 2 < ending.length) : FilePath.IsName (id ++ ending) := by
  have lengths : (id ++ ending).length = id.length + ending.length := String.length_append ..
  have longName : 2 < (id ++ ending).length := by omega
  refine ⟨?_, ?_, ?_, ?_⟩
  · rw [String.toList_append, List.mem_append]
    exact fun slash => slash.elim (slash_not_mem_of_accepted accepted) single
  all_goals
    intro same
    rw [same] at longName
    exact absurd longName (by decide)

theorem isName_file {id : String} (accepted : checkId id = .ok ()) :
    FilePath.IsName (id ++ suffix) :=
  isName_append accepted (by decide) (by decide)

theorem isName_temporary {id : String} (accepted : checkId id = .ok ()) :
    FilePath.IsName (id ++ ".tmp") :=
  isName_append accepted (by decide) (by decide)

theorem FitsId.file {directory id : String} (fits : FitsId directory id) :
    FileTree.Fits directory (id ++ suffix) where
  isName := isName_file fits.accepted
  nameShort := fits.nameShort
  pathShort := fits.pathShort

/-- The temporary file has a shorter name than the session file. -/
theorem FitsId.temporary {directory id : String} (fits : FitsId directory id) :
    FileTree.Fits directory (id ++ ".tmp") where
  isName := isName_temporary fits.accepted
  nameShort := by
    have short := fits.nameShort
    rw [String.utf8ByteSize_append] at short ⊢
    have suffixSize : suffix.utf8ByteSize = 5 := by decide
    have endingSize : ".tmp".utf8ByteSize = 4 := by decide
    omega
  pathShort := by
    have short := fits.pathShort
    obtain ⟨front, spelled⟩ := FilePath.child_eq_append directory
    rw [spelled, String.utf8ByteSize_append, String.utf8ByteSize_append] at short ⊢
    have suffixSize : suffix.utf8ByteSize = 5 := by decide
    have endingSize : ".tmp".utf8ByteSize = 4 := by decide
    omega

theorem append_suffix_ne (id other : String) : id ++ ".tmp" ≠ other ++ suffix := by
  intro same
  have lasts := congrArg (fun s => s.toList.getLast?) same
  simp [suffix, String.toList_append] at lasts

theorem dropSuffix?_append_suffix (id : String) :
    ((id ++ suffix).dropSuffix? suffix).map (·.toString) = some id := by
  rw [String.dropSuffix?_eq_dropSuffix?_toSlice]
  cases found : (id ++ suffix).toSlice.dropSuffix? suffix with
  | none =>
      rw [String.Slice.dropSuffix?_eq_none_iff] at found
      have ends : (id ++ suffix).toSlice.endsWith suffix = true := by
        rw [String.Slice.endsWith_string_iff]
        simp
      rw [found] at ends
      cases ends
  | some slice =>
      have same := String.Slice.eq_append_of_dropSuffix?_string_eq_some found
      rw [String.copy_toSlice, String.append_left_inj] at same
      rw [same]
      rfl

section Index

variable {store : SessionStore}

/-- A store that remembers no other path for an id than that of its file. -/
def Indexed (store : SessionStore) : Prop := ∀ entry ∈ store.index, entry.2 = store.file entry.1

@[simp] theorem directory_ofPath (path : String) :
    (ofPath path).directory = FilePath.normalize path := by
  rw [ofPath]

theorem indexed_ofPath (path : String) : (ofPath path).Indexed := by
  intro entry member
  exact absurd member List.not_mem_nil

theorem Indexed.pathOf (indexed : store.Indexed) (id : String) :
    store.pathOf id = store.file id := by
  unfold SessionStore.pathOf
  cases found : store.index.find? (·.1 == id) with
  | none => rfl
  | some entry =>
      have known := indexed entry (List.mem_of_find?_eq_some found)
      have same : entry.1 = id := by simpa using List.find?_some found
      rw [Option.map_some, Option.getD_some, known, same]

theorem Indexed.forget (indexed : store.Indexed) (id : String) : (store.forget id).Indexed :=
  fun entry member => indexed entry (List.mem_filter.mp member).1

@[simp] theorem directory_remember (id path : String) :
    (store.remember id path).directory = store.directory := by
  unfold remember
  split <;> rfl

theorem Indexed.remember (indexed : store.Indexed) (id : String) :
    (store.remember id (store.file id)).Indexed := by
  intro entry member
  have sameFile : ∀ id, (store.remember id (store.file id)).file = store.file := by
    intro id
    funext other
    rw [file, directory_remember, ← file]
  rw [sameFile]
  unfold SessionStore.remember at member
  split at member
  · obtain ⟨⟨i, p⟩, known, rfl⟩ := List.mem_map.mp member
    dsimp only
    split
    · rename_i here
      rw [beq_iff_eq.mp here]
    · exact indexed _ known
  · rcases List.mem_append.mp member with known | last
    · exact indexed entry known
    · obtain rfl := List.mem_singleton.mp last
      rfl

end Index

end SessionStore

namespace Session

section Access

variable {α β : Type} {desk middle : Desk}

/-- What an operation answers, and what it leaves behind. -/
def Access.perform (access : Access α) (desk : Desk) : Except Failure α × Desk :=
  access.run.run desk

theorem perform_bind {access : Access α} {next : α → Access β} :
    (access >>= next).perform desk =
      match access.perform desk with
      | (.ok result, middle) => (next result).perform middle
      | (.error failure, middle) => (.error failure, middle) := by
  unfold Access.perform
  rw [ExceptT.run_bind, StateT.run_bind]
  cases StateT.run (ExceptT.run access) desk with
  | mk outcome middle => cases outcome <;> rfl

theorem ok_of_bind {access : Access α} {next : α → Access β} {result : β} {after : Desk}
    (done : (access >>= next).perform desk = (.ok result, after)) : ∃ first middle,
      access.perform desk = (.ok first, middle) ∧
        (next first).perform middle = (.ok result, after) := by
  rw [perform_bind] at done
  cases ran : access.perform desk with
  | mk outcome middle =>
      rw [ran] at done
      cases outcome with
      | ok first => exact ⟨first, middle, rfl, done⟩
      | error fault => cases done

theorem perform_pure (result : α) : (pure result : Access α).perform desk = (.ok result, desk) :=
  rfl

theorem perform_get : (get : Access Desk).perform desk = (.ok desk, desk) := rfl

theorem perform_modify (edit : Desk → Desk) :
    (modify edit : Access Unit).perform desk = (.ok (), edit desk) := rfl

theorem perform_settle (outcome : Except Failure α) :
    (settle outcome).perform desk = (outcome, desk) := rfl

theorem perform_inspect (look : FileTree → Except Failure α) :
    (inspect look).perform desk = (look desk.files, desk) := by
  unfold inspect
  rw [perform_bind, perform_get]
  rfl

theorem perform_change {edit : FileTree → Except Failure FileTree} {files : FileTree}
    (edited : edit desk.files = .ok files) :
    (change edit).perform desk = (.ok (), { desk with files }) := by
  unfold change
  rw [perform_bind, perform_inspect, edited]
  rfl

theorem perform_change_error {edit : FileTree → Except Failure FileTree} {failure : Failure}
    (refused : edit desk.files = .error failure) :
    (change edit).perform desk = (.error failure, desk) := by
  unfold change
  rw [perform_bind, perform_inspect, refused]

theorem perform_forget (id : String) :
    (forget id).perform desk = (.ok (), { desk with store := desk.store.forget id }) := rfl

theorem perform_report (message : String) (extra : Record) :
    (report message extra).perform desk =
      (.ok (), { desk with log := desk.log ++ [.info SessionStore.logger message extra] }) := rfl

theorem perform_pathOf {id : String} (accepted : SessionStore.checkId id = .ok ()) :
    (pathOf id).perform desk = (.ok (desk.store.pathOf id), desk) := by
  unfold pathOf
  rw [perform_bind, perform_settle, accepted]
  rfl

theorem perform_makeDirectory :
    makeDirectory.perform desk =
      ((desk.files.makeDirectories desk.store.directory).2,
        { desk with files := (desk.files.makeDirectories desk.store.directory).1 }) := by
  unfold makeDirectory
  rw [perform_bind, perform_get]
  rfl

theorem perform_lift (access : Access α) :
    Access.perform (ExceptT.lift access.run : Access (Except Failure α)) desk =
      (.ok (access.perform desk).1, (access.perform desk).2) := rfl

end Access

/-- The files of a directory are the saved sessions: each state is written in the file of its id,
and there are no other files. -/
structure Mirrors (texts : String → Option String) (sessions : String → Option SessionState) :
    Prop where
  saved : ∀ {id state}, sessions id = some state →
    ∃ text, texts (id ++ SessionStore.suffix) = some text ∧ SessionState.ofText text = .ok state
  shelved : ∀ {name text}, texts name = some text →
    ∃ id, name = id ++ SessionStore.suffix ∧ (sessions id).isSome = true
  nameable : ∀ {id}, (sessions id).isSome = true → FileTree.isNameable id = true

/-- A desk whose store has a directory of its own, in which the given sessions are saved. Before the
first save the directory may be absent. -/
structure Steady (directory : String) (desk : Desk) (sessions : String → Option SessionState) :
    Prop where
  works : desk.store.directory = directory
  indexed : desk.store.Indexed
  covers : desk.files.Covers directory
  shelf : desk.files.exists? directory = .ok false ∧ desk.files.IsVacant directory ∧
      (∀ id, sessions id = none) ∨
    ∃ place texts, desk.files.HoldsFiles directory place texts ∧ Mirrors texts sessions

section Queries

variable {texts : String → Option String} {sessions : String → Option SessionState}

theorem Mirrors.isSome (mirrors : Mirrors texts sessions) (id : String) :
    (texts (id ++ SessionStore.suffix)).isSome = (sessions id).isSome := by
  rw [Bool.eq_iff_iff]
  constructor
  · intro present
    obtain ⟨text, found⟩ := Option.isSome_iff_exists.mp present
    obtain ⟨other, same, saved⟩ := mirrors.shelved found
    rw [(String.append_left_inj _).mp same]
    exact saved
  · intro present
    obtain ⟨state, found⟩ := Option.isSome_iff_exists.mp present
    obtain ⟨text, held, -⟩ := mirrors.saved found
    rw [held]
    rfl

variable {directory id : String} {desk : Desk}

theorem isNameable_file (directoryNameable : FileTree.isNameable directory = true)
    (idNameable : FileTree.isNameable id = true) {ending : String}
    (plain : FileTree.isNameable ending = true) :
    FileTree.isNameable (FilePath.child directory (id ++ ending)) = true := by
  rw [FileTree.isNameable_child, FileTree.isNameable_append, directoryNameable, idNameable, plain]
  rfl

theorem Mirrors.isNameable_child (mirrors : Mirrors texts sessions)
    (nameable : FileTree.isNameable directory = true) {state : SessionState}
    (saved : sessions id = some state) :
    FileTree.isNameable (FilePath.child directory (id ++ SessionStore.suffix)) = true := by
  have idNameable : FileTree.isNameable id = true := mirrors.nameable (by rw [saved]; rfl)
  exact isNameable_file nameable idNameable (by decide)

theorem Steady.forget (steady : Steady directory desk sessions) (id : String) :
    Steady directory { desk with store := desk.store.forget id } sessions :=
  ⟨steady.works, steady.indexed.forget id, steady.covers, steady.shelf⟩

theorem Steady.pathOf (steady : Steady directory desk sessions) (id : String) :
    desk.store.pathOf id = FilePath.child directory (id ++ SessionStore.suffix) := by
  rw [steady.indexed.pathOf, SessionStore.file, steady.works]

theorem Steady.present (steady : Steady directory desk sessions) {state : SessionState}
    (saved : sessions id = some state) :
    ∃ place texts, desk.files.HoldsFiles directory place texts ∧ Mirrors texts sessions := by
  rcases steady.shelf with ⟨-, -, none⟩ | present
  · rw [none id] at saved
    cases saved
  · exact present

variable (steady : Steady directory desk sessions) (nonempty : directory ≠ "")
  (nameable : FileTree.isNameable directory = true)

include steady nonempty nameable

theorem Steady.exists? (fits : SessionStore.FitsId directory id) :
    desk.files.exists? (FilePath.child directory (id ++ SessionStore.suffix)) =
      .ok (sessions id).isSome := by
  rcases steady.shelf with ⟨absent, -, none⟩ | ⟨place, texts, holds, mirrors⟩
  · rw [none id]
    exact FileTree.exists?_child_of_absent steady.covers nonempty fits.file nameable absent
  · rw [holds.exists?_child steady.covers nonempty fits.file, mirrors.isSome,
      FileTree.isNameable_child, FileTree.isNameable_append, nameable]
    cases saved : (sessions id).isSome with
    | false => rw [Bool.and_false]
    | true =>
        rw [mirrors.nameable saved]
        rfl

theorem Steady.load (fits : SessionStore.FitsId directory id) :
    ∃ next, (load id).perform desk =
        (match sessions id with
          | some state => .ok state
          | none => .error (.sessionNotFound id), next) ∧
      Steady directory next sessions := by
  unfold Session.load
  simp only [perform_bind, perform_pathOf fits.accepted, perform_inspect, steady.pathOf,
    steady.exists? nonempty nameable fits]
  cases saved : sessions id with
  | none => exact ⟨{ desk with store := desk.store.forget id }, rfl, steady.forget id⟩
  | some state =>
      obtain ⟨place, texts, holds, mirrors⟩ := steady.present saved
      obtain ⟨text, held, reads⟩ := mirrors.saved saved
      have childNameable := mirrors.isNameable_child nameable saved
      refine ⟨desk, ?_, steady⟩
      simp only [Option.isSome_some, if_true, perform_bind, perform_inspect,
        holds.read_child steady.covers nonempty fits.file childNameable held, perform_settle, reads]

theorem Steady.holds (fits : SessionStore.FitsId directory id) :
    ∃ next, (holds id).perform desk = (.ok (sessions id).isSome, next) ∧
      Steady directory next sessions := by
  unfold Session.holds
  simp only [perform_bind, perform_pathOf fits.accepted, perform_inspect, steady.pathOf,
    steady.exists? nonempty nameable fits]
  cases (sessions id).isSome with
  | true => exact ⟨desk, rfl, steady⟩
  | false => exact ⟨{ desk with store := desk.store.forget id }, rfl, steady.forget id⟩

end Queries

section Changes

variable {texts : String → Option String} {sessions : String → Option SessionState}
  {directory id : String} {desk : Desk}

/-- The file of an id changes together with its state. -/
theorem Mirrors.update (mirrors : Mirrors texts sessions) {text : Option String}
    {state : Option SessionState}
    (reads : ∀ found, state = some found →
      ∃ held, text = some held ∧ SessionState.ofText held = .ok found)
    (shelved : ∀ held, text = some held → state.isSome = true)
    (nameable : state.isSome = true → FileTree.isNameable id = true) :
    Mirrors (Function.update texts (id ++ SessionStore.suffix) text)
      (Function.update sessions id state) := by
  constructor
  · intro other found saved
    by_cases here : other = id
    · subst here
      rw [Function.update_self] at saved ⊢
      exact reads found saved
    · rw [Function.update_of_ne here] at saved
      have apart : other ++ SessionStore.suffix ≠ id ++ SessionStore.suffix :=
        fun same => here ((String.append_left_inj _).mp same)
      rw [Function.update_of_ne apart]
      exact mirrors.saved saved
  · intro name held given
    by_cases here : name = id ++ SessionStore.suffix
    · subst here
      rw [Function.update_self] at given
      refine ⟨id, rfl, ?_⟩
      rw [Function.update_self]
      exact shelved held given
    · rw [Function.update_of_ne here] at given
      obtain ⟨other, rfl, saved⟩ := mirrors.shelved given
      have apart : other ≠ id := fun same => here (congrArg (· ++ SessionStore.suffix) same)
      refine ⟨other, rfl, ?_⟩
      rwa [Function.update_of_ne apart]
  · intro other saved
    by_cases here : other = id
    · subst here
      rw [Function.update_self] at saved
      exact nameable saved
    · rw [Function.update_of_ne here] at saved
      exact mirrors.nameable saved

theorem Mirrors.remove (mirrors : Mirrors texts sessions) (id : String) :
    Mirrors (Function.update texts (id ++ SessionStore.suffix) none)
      (Function.update sessions id none) := by
  apply mirrors.update
  · intro state saved
    cases saved
  · intro text held
    cases held
  · intro saved
    cases saved

theorem Mirrors.add (mirrors : Mirrors texts sessions) {state : SessionState} {text : String}
    (reads : SessionState.ofText text = .ok state) (nameable : FileTree.isNameable id = true) :
    Mirrors (Function.update texts (id ++ SessionStore.suffix) (some text))
      (Function.update sessions id (some state)) := by
  apply mirrors.update
  · rintro found ⟨⟩
    exact ⟨text, rfl, reads⟩
  · intro held given
    rfl
  · intro saved
    exact nameable

variable (steady : Steady directory desk sessions) (nonempty : directory ≠ "")
  (nameable : FileTree.isNameable directory = true)

include steady nonempty nameable

/-- Deleting an id removes its state and no other. -/
theorem Steady.delete (fits : SessionStore.FitsId directory id) :
    ∃ next, (delete id).perform desk = (.ok (sessions id).isSome, next) ∧
      Steady directory next (Function.update sessions id none) := by
  have forgotten := steady.forget id
  have there := forgotten.exists? nonempty nameable fits
  cases saved : sessions id with
  | none =>
      refine ⟨{ desk with store := desk.store.forget id }, ?_, ?_⟩
      · unfold Session.delete
        simp only [perform_bind, perform_pathOf fits.accepted, perform_forget, perform_inspect,
          steady.pathOf, there, saved]
        rfl
      · rw [← saved, Function.update_eq_self]
        exact forgotten
  | some state =>
      obtain ⟨place, texts, holds, mirrors⟩ := steady.present saved
      obtain ⟨text, held, -⟩ := mirrors.saved saved
      have childNameable := mirrors.isNameable_child nameable saved
      have unlinked := holds.unlink_child steady.covers nonempty fits.file childNameable held
      let next : Desk :=
        { store := desk.store.forget id
          files := desk.files.drop (place ++ [id ++ SessionStore.suffix])
          log := desk.log ++
            [.info SessionStore.logger "Session deleted" [("session_id", .text id)]] }
      have removes : (change (·.unlink
          (FilePath.child directory (id ++ SessionStore.suffix)))).perform
            { desk with store := desk.store.forget id } =
              (.ok (), { next with log := desk.log }) := perform_change unlinked
      refine ⟨next, ?_, ?_⟩
      · unfold Session.delete
        simp only [perform_bind, perform_pathOf fits.accepted, perform_forget, perform_inspect,
          steady.pathOf, there, saved, Option.isSome_some, if_true, removes]
        rfl
      · exact ⟨forgotten.works, forgotten.indexed, steady.covers.of_root FileTree.root_drop,
          .inr ⟨place, _, holds.drop _, mirrors.remove id⟩⟩

omit nonempty in
theorem Steady.made (normal : FilePath.normalize directory = directory) :
    ∃ made place texts, desk.files.makeDirectories directory = (made, .ok ()) ∧
      made.Covers directory ∧ made.HoldsFiles directory place texts ∧ Mirrors texts sessions := by
  rcases steady.shelf with ⟨-, ⟨made, done, empty⟩, none⟩ | ⟨place, texts, holds, mirrors⟩
  · obtain ⟨place, holds⟩ := FileTree.holdsFiles_of_no_children empty
    have sameRoot : made.root = desk.files.root := by
      have kept := desk.files.makeDirectories_root directory
      rwa [done] at kept
    refine ⟨made, place, _, done, steady.covers.of_root sameRoot, holds, ?_, ?_, ?_⟩
    · intro id state saved
      rw [none id] at saved
      cases saved
    · intro name text held
      cases held
    · intro id saved
      rw [none id] at saved
      cases saved
  · exact ⟨desk.files, place, texts,
      FileTree.makeDirectories_of_present normal nameable holds.located holds.isDirectory,
      steady.covers, holds, mirrors⟩

omit steady

theorem perform_writeWhole {place : List String} (fits : SessionStore.FitsId directory id)
    (covers : desk.files.Covers directory) (holds : desk.files.HoldsFiles directory place texts)
    (idNameable : FileTree.isNameable id = true) (text : String) :
    (writeWhole (FilePath.child directory (id ++ ".tmp"))
        (FilePath.child directory (id ++ SessionStore.suffix)) (.ok text)).perform desk =
      (.ok (), { desk with
        files := ((desk.files.put (place ++ [id ++ ".tmp"]) (.file text)).drop
          (place ++ [id ++ ".tmp"])).put (place ++ [id ++ SessionStore.suffix])
            (.file text) }) := by
  have temporaryNameable : FileTree.isNameable (FilePath.child directory (id ++ ".tmp")) = true :=
    isNameable_file nameable idNameable (by decide)
  have fileNameable :
      FileTree.isNameable (FilePath.child directory (id ++ SessionStore.suffix)) = true :=
    isNameable_file nameable idNameable (by decide)
  have writes : (change (·.write (FilePath.child directory (id ++ ".tmp")) text)).perform desk =
      (.ok (), { desk with files := desk.files.put (place ++ [id ++ ".tmp"]) (.file text) }) :=
    perform_change (holds.write_child covers nonempty fits.temporary temporaryNameable text)
  have renames : (change (·.rename (FilePath.child directory (id ++ ".tmp"))
      (FilePath.child directory (id ++ SessionStore.suffix)))).perform
        { desk with files := desk.files.put (place ++ [id ++ ".tmp"]) (.file text) } = _ :=
    perform_change <| (holds.put text fits.temporary.pathShort).rename_child
      (covers.of_root FileTree.root_put) nonempty fits.file fileNameable fits.temporary
      temporaryNameable (Function.update_self ..)
  unfold writeWhole
  simp only [perform_bind, perform_lift, perform_settle, writes, renames]
  rfl

omit nonempty nameable in
/-- An id that no file can be named for is refused, and nothing is left behind. -/
theorem perform_writeWhole_of_unnameable (idUnnameable : FileTree.isNameable id = false)
    (text : String) :
    (writeWhole (FilePath.child directory (id ++ ".tmp"))
        (FilePath.child directory (id ++ SessionStore.suffix)) (.ok text)).perform desk =
      (.error (.value "embedded null byte"), desk) := by
  have unnameable :
      FileTree.isNameable (FilePath.child directory (id ++ ".tmp")) = false := by
    rw [FileTree.isNameable_child, FileTree.isNameable_append, idUnnameable, Bool.false_and,
      Bool.and_false]
  have refused : (change (·.write (FilePath.child directory (id ++ ".tmp")) text)).perform desk =
      (.error (.value "embedded null byte"), desk) :=
    perform_change_error (FileTree.write_of_unnameable unnameable text)
  unfold writeWhole
  simp only [perform_bind, perform_lift, perform_settle, refused, perform_inspect,
    FileTree.exists?_of_unnameable unnameable]
  rfl

include steady

/-- Saving a state sets the state of its id and no other. -/
theorem Steady.save (normal : FilePath.normalize directory = directory)
    (fits : SessionStore.FitsId directory id) (idNameable : FileTree.isNameable id = true)
    {source : Value} {state : SessionState}
    (given : SessionState.ofValue source = .ok state) (lossless : state.IsLossless) :
    ∃ next, (save id source).perform desk =
        (.ok (FilePath.child directory (id ++ SessionStore.suffix)), next) ∧
      Steady directory next (Function.update sessions id (some state)) := by
  obtain ⟨text, written, reads⟩ := lossless
  obtain ⟨made, place, texts, done, covers, holds, mirrors⟩ := steady.made nameable normal
  have makes : makeDirectory.perform desk = (.ok (), { desk with files := made }) := by
    rw [perform_makeDirectory, steady.works, done]
  let saved : FileTree := ((made.put (place ++ [id ++ ".tmp"]) (.file text)).drop
    (place ++ [id ++ ".tmp"])).put (place ++ [id ++ SessionStore.suffix]) (.file text)
  have writes : (writeWhole (FilePath.child directory (id ++ ".tmp"))
      (FilePath.child directory (id ++ SessionStore.suffix)) (.ok text)).perform
        { desk with files := made } = (.ok (), { desk with files := saved }) :=
    perform_writeWhole nonempty nameable fits covers holds idNameable text
  have noTemporary : texts (id ++ ".tmp") = none := by
    cases held : texts (id ++ ".tmp") with
    | none => rfl
    | some text =>
        obtain ⟨other, same, -⟩ := mirrors.shelved held
        exact absurd same (SessionStore.append_suffix_ne id other)
  have savedHolds := ((holds.put text fits.temporary.pathShort).drop (id ++ ".tmp")).put
    text fits.pathShort
  rw [Function.update_idem, ← noTemporary, Function.update_eq_self] at savedHolds
  let next : Desk :=
    { store := desk.store.remember id (desk.store.file id)
      files := saved
      log := desk.log ++ [.info SessionStore.logger "Session saved"
        [("session_id", .text id), ("cookies", .ofNat state.cookies.length)]] }
  refine ⟨next, ?_, ?_⟩
  · unfold Session.save
    simp only [perform_bind, perform_settle, fits.accepted, given, perform_get, makes, written,
      SessionStore.temporary, SessionStore.file, steady.works, writes, perform_modify,
      perform_report, perform_pure]
    rw [← steady.works, ← SessionStore.file]
  · refine ⟨?_, steady.indexed.remember id, covers.of_root ?_, .inr ⟨place, _, savedHolds,
      mirrors.add reads idNameable⟩⟩
    · rw [SessionStore.directory_remember]
      exact steady.works
    · rw [FileTree.root_put, FileTree.root_drop, FileTree.root_put]

omit nonempty in
/-- Saving under an id that no file can be named for is refused; the directory may be made. -/
theorem Steady.save_of_unnameable (normal : FilePath.normalize directory = directory)
    (fits : SessionStore.FitsId directory id) (idUnnameable : FileTree.isNameable id = false)
    {source : Value} {state : SessionState}
    (given : SessionState.ofValue source = .ok state) (lossless : state.IsLossless) :
    ∃ next, (Session.save id source).perform desk =
        (.error (.value "embedded null byte"), next) ∧
      Steady directory next sessions := by
  obtain ⟨text, written, -⟩ := lossless
  obtain ⟨made, place, texts, done, covers, holds, mirrors⟩ := steady.made nameable normal
  have makes : makeDirectory.perform desk = (.ok (), { desk with files := made }) := by
    rw [perform_makeDirectory, steady.works, done]
  have refused : (writeWhole (FilePath.child directory (id ++ ".tmp"))
      (FilePath.child directory (id ++ SessionStore.suffix)) (.ok text)).perform
        { desk with files := made } =
          (.error (.value "embedded null byte"), { desk with files := made }) :=
    perform_writeWhole_of_unnameable idUnnameable text
  refine ⟨{ desk with files := made }, ?_,
    steady.works, steady.indexed, covers, .inr ⟨place, texts, holds, mirrors⟩⟩
  unfold Session.save
  simp only [perform_bind, perform_settle, fits.accepted, given, perform_get, makes, written,
    SessionStore.temporary, SessionStore.file, steady.works, refused]

end Changes

section Listing

variable {texts : String → Option String} {sessions : String → Option SessionState}
  {directory : String} {desk : Desk}

/-- The id of a session file, as a listing reads it off the file's name. -/
def idOf (child : String × FileEntry) : Option String :=
  if child.2 matches .file _ then
    (child.1.dropSuffix? SessionStore.suffix).map (·.toString)
  else none

theorem idOf_eq_some_iff {child : String × FileEntry} {id : String} :
    idOf child = some id ↔ ∃ text, child = (id ++ SessionStore.suffix, .file text) := by
  obtain ⟨name, entry⟩ := child
  cases entry with
  | directory => exact ⟨nofun, nofun⟩
  | file text =>
      constructor
      · intro isId
        obtain ⟨slice, found, rfl⟩ := Option.map_eq_some_iff.mp isId
        rw [String.dropSuffix?_eq_dropSuffix?_toSlice] at found
        have same := String.Slice.eq_append_of_dropSuffix?_string_eq_some found
        rw [String.copy_toSlice] at same
        exact ⟨text, Prod.ext same rfl⟩
      · rintro ⟨_, ⟨⟩⟩
        exact SessionStore.dropSuffix?_append_suffix id

theorem map_idOf {children : List (String × FileEntry)}
    (files : ∀ child ∈ children, ∃ id text, child = (id ++ SessionStore.suffix, .file text)) :
    (children.filterMap idOf).map (· ++ SessionStore.suffix) = children.map (·.1) := by
  induction children with
  | nil => rfl
  | cons first rest ih =>
      obtain ⟨id, text, rfl⟩ := files first List.mem_cons_self
      have own : idOf (id ++ SessionStore.suffix, .file text) = some id :=
        SessionStore.dropSuffix?_append_suffix id
      rw [List.filterMap_cons_some own, List.map_cons, List.map_cons,
        ih fun child member => files child (List.mem_cons_of_mem _ member)]

theorem Steady.list (steady : Steady directory desk sessions)
    (nameable : FileTree.isNameable directory = true) :
    ∃ ids, (list).perform desk = (.ok ids, desk) ∧ ids.Nodup ∧
      ∀ id, id ∈ ids ↔ (sessions id).isSome = true := by
  rcases steady.shelf with ⟨absent, -, none⟩ | ⟨place, texts, holds, mirrors⟩
  · refine ⟨[], ?_, List.nodup_nil, fun id => by rw [none id]; simp⟩
    unfold Session.list
    simp only [perform_bind, perform_get, perform_inspect, steady.works, absent]
    rfl
  · have found := FileTree.exists?_of_located nameable holds.located holds.isDirectory
    have listed := holds.survey
    have files : ∀ child ∈ desk.files.childrenAt place,
        ∃ id text, child = (id ++ SessionStore.suffix, .file text) := by
      rintro ⟨name, entry⟩ member
      obtain ⟨text, held, rfl⟩ := (holds.held name entry).mp member
      obtain ⟨id, rfl, -⟩ := mirrors.shelved held
      exact ⟨id, text, rfl⟩
    have names := map_idOf files
    let ids := (desk.files.childrenAt place).filterMap idOf
    have sorted := List.mergeSort_perm ids fun a b => !(decide (b < a))
    refine ⟨ids.mergeSort fun a b => !(decide (b < a)), ?_, ?_, ?_⟩
    · unfold Session.list
      simp only [perform_bind, perform_get, perform_inspect, steady.works, found, if_true, listed]
      rfl
    · refine sorted.nodup_iff.mpr (List.Nodup.of_map (· ++ SessionStore.suffix) ?_)
      rw [names]
      exact holds.distinct
    · intro id
      rw [sorted.mem_iff, ← mirrors.isSome]
      have suffixed : id ∈ ids ↔
          id ++ SessionStore.suffix ∈ ids.map (· ++ SessionStore.suffix) := by
        simp
      rw [suffixed, names, List.mem_map]
      constructor
      · rintro ⟨⟨name, entry⟩, member, same⟩
        obtain ⟨text, held, -⟩ := (holds.held name entry).mp member
        dsimp only at same
        rw [← same, held]
        rfl
      · intro present
        obtain ⟨text, held⟩ := Option.isSome_iff_exists.mp present
        exact ⟨_, (holds.held _ (.file text)).mpr ⟨text, held, rfl⟩, rfl⟩

/-- No file of the directory is left but those of saved sessions. -/
theorem Steady.children (steady : Steady directory desk sessions)
    (nameable : FileTree.isNameable directory = true) {children : List (String × FileEntry)}
    (listed : desk.files.children directory = .ok children) :
    ∀ child ∈ children, ∃ id, child.1 = id ++ SessionStore.suffix ∧
      (sessions id).isSome = true := by
  rcases steady.shelf with ⟨absent, -, -⟩ | ⟨place, texts, holds, mirrors⟩
  · have missing : ∀ found, desk.files.find directory ≠ .ok found := by
      intro found known
      unfold FileTree.exists? at absent
      rw [nameable, known] at absent
      cases absent
    unfold FileTree.children at listed
    split at listed
    · rename_i place known
      exact absurd known (missing _)
    · cases listed
    · cases listed
  · rw [FileTree.children_eq_childrenAt holds.located holds.isDirectory] at listed
    obtain rfl := Except.ok.inj listed
    rintro ⟨name, entry⟩ member
    obtain ⟨text, held, -⟩ := (holds.held name entry).mp member
    exact mirrors.shelved held

end Listing

end Session

end WebHarvest
