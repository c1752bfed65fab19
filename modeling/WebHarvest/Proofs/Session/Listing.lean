import WebHarvest.Proofs.Session.Mishap

/-!
# What a listing shows

A listing reads ids off the names of files, whoever has put them there; it does not check them, and
it passes over directories. Who asks for a session goes from an id, which is checked, to a path, and
is told that whatever stands there is one. So the two agree exactly when no file of the directory is
named for an id that is refused, and no directory in it for one that is accepted.
-/

set_option autoImplicit false

namespace WebHarvest

namespace FileTree

variable {tree : FileTree} {place : List String} {entry : FileEntry} {directory name : String}

/-- A tree as file systems have them: entries lie in directories, there is one in each place, and
each has a name that can be asked for. -/
structure Proper (tree : FileTree) : Prop extends Rooted tree where
  distinct : (tree.entries.map (·.1)).Nodup
  named : ∀ place name entry, (place ++ [name], entry) ∈ tree.entries →
    FilePath.IsName name ∧ isNameable name = true ∧ name.utf8ByteSize ≤ nameLimit

theorem Proper.mem_iff (proper : tree.Proper) (deep : place ≠ []) :
    (place, entry) ∈ tree.entries ↔ tree.entry? place = some entry := by
  rw [lookup_eq_find? deep]
  constructor
  · intro member
    cases found : tree.entries.find? (·.1 == place) with
    | none => exact absurd (beq_self_eq_true place) (List.find?_eq_none.mp found _ member)
    | some item =>
        have same : item.1 = place := by simpa using List.find?_some found
        have known := List.mem_of_find?_eq_some found
        rw [List.inj_on_of_nodup_map proper.distinct known member same]
        rfl
  · intro held
    obtain ⟨⟨p, e⟩, found, rfl⟩ := Option.map_eq_some_iff.mp held
    have same : p = place := by simpa using List.find?_some found
    exact same ▸ List.mem_of_find?_eq_some found

theorem Proper.mem_childrenAt (proper : tree.Proper) :
    (name, entry) ∈ tree.childrenAt place ↔ tree.entry? (place ++ [name]) = some entry := by
  rw [FileTree.mem_childrenAt, proper.mem_iff (by simp)]

theorem Proper.names_nodup (proper : tree.Proper) (place : List String) :
    ((tree.childrenAt place).map (·.1)).Nodup := by
  unfold childrenAt
  rw [List.Nodup, List.pairwise_map, List.pairwise_filterMap]
  refine (List.pairwise_map.mp proper.distinct).imp fun apart => ?_
  rintro ⟨name, entry⟩ isChild ⟨other, otherEntry⟩ isOther same
  rw [childOf_eq_some_iff.mp isChild, childOf_eq_some_iff.mp isOther] at apart
  exact apart (congrArg (place ++ [·]) same)

theorem exists?_eq_true_iff {path : String} :
    tree.exists? path = .ok true ↔ isNameable path = true ∧ ∃ item, tree.find path = .ok item := by
  unfold exists?
  cases isNameable path with
  | false => exact ⟨nofun, nofun⟩
  | true =>
      cases tree.find path with
      | ok item => exact ⟨fun _ => ⟨rfl, item, rfl⟩, fun _ => rfl⟩
      | error fault =>
          refine ⟨fun present => ?_, nofun⟩
          cases fault <;> cases present

theorem exists?_eq_error {path : String} {failure : Failure}
    (refused : tree.exists? path = .error failure) :
    isNameable path = true ∧ tree.find path = .error .nameTooLong := by
  unfold exists? at refused
  cases nameable : isNameable path with
  | false =>
      rw [nameable] at refused
      cases refused
  | true =>
      rw [nameable] at refused
      cases found : tree.find path with
      | ok item =>
          rw [found] at refused
          cases refused
      | error fault =>
          rw [found] at refused
          cases fault with
          | nameTooLong => exact ⟨rfl, rfl⟩
          | _ => cases refused

/-- Wherever the path of an entry leads, it goes on from a directory. -/
theorem locate_of_child (covers : tree.Covers directory) (nonempty : directory ≠ "")
    (isName : FilePath.IsName name)
    (located : tree.locate (FilePath.child directory name) = .ok place) :
    ∃ above, tree.locate directory = .ok above ∧ place = above ++ [name] := by
  obtain ⟨short, walked⟩ := locate_eq_ok_iff.mp located
  rw [stepsTo_child covers nonempty isName, walk_append] at walked
  obtain ⟨above, walkedAbove, last⟩ := Outcome.bind_ok_iff.mp walked
  refine ⟨above, locate_eq_ok_iff.mpr ⟨fun long => short ?_, walkedAbove⟩, ?_⟩
  · rcases FilePath.child_cases directory name with ⟨rfl, -⟩ | ⟨_, -, same⟩ | ⟨-, -, same⟩
    · exact absurd long (by decide)
    · rw [same, String.utf8ByteSize_append]
      omega
    · rw [same, String.utf8ByteSize_append, String.utf8ByteSize_append]
      omega
  · have notAbove : (name == "..") = false := by simpa using isName.notAbove
    rw [walk, notAbove, if_neg Bool.false_ne_true] at last
    split at last
    · cases last
    · cases last
    · split at last
      · cases last
      · cases last
        rfl

theorem survey_eq_ok_iff {path : String} {children : List (String × FileEntry)} :
    tree.survey path = .ok children ↔ ∃ place, tree.find path = .ok (place, .directory) ∧
      children = tree.childrenAt place ∧
      ∀ child ∈ children, (FilePath.child path child.1).utf8ByteSize < pathLimit := by
  constructor
  · intro surveyed
    cases found : tree.find path with
    | error fault =>
        rw [survey, FileTree.children, found] at surveyed
        cases surveyed
    | ok item =>
        obtain ⟨place, entry⟩ := item
        cases entry with
        | file text =>
            rw [survey, FileTree.children, found] at surveyed
            cases surveyed
        | directory =>
            obtain ⟨located, held⟩ := find_eq_ok_iff.mp found
            rw [survey_of_located located held] at surveyed
            split at surveyed
            · cases surveyed
            · rename_i none
              cases surveyed
              refine ⟨place, rfl, rfl, fun child member => ?_⟩
              simpa using List.find?_eq_none.mp none child member
  · rintro ⟨place, found, rfl, short⟩
    obtain ⟨located, held⟩ := find_eq_ok_iff.mp found
    exact survey_eq_childrenAt located held short

end FileTree

namespace Session

section Shelf

variable {id : String} {ids : List String} {desk : Desk} {entry : FileEntry}

/-- What stands in the place of the session file of an id, in the directory of the store. -/
def Desk.Shelves (desk : Desk) (id : String) (entry : FileEntry) : Prop :=
  FileTree.isNameable desk.store.directory = true ∧
    ∃ place, desk.files.locate desk.store.directory = .ok place ∧
      desk.files.entry? (place ++ [id ++ SessionStore.suffix]) = some entry

theorem Desk.Shelves.find (shelves : desk.Shelves id entry) (rooted : desk.files.Rooted) :
    ∃ place, desk.files.find desk.store.directory = .ok (place, .directory) ∧
      desk.files.entry? (place ++ [id ++ SessionStore.suffix]) = some entry := by
  obtain ⟨-, place, located, held⟩ := shelves
  have above := rooted.above held
  rw [List.dropLast_concat] at above
  exact ⟨place, FileTree.find_eq_ok_iff.mpr ⟨located, above⟩, held⟩

/-- Why a directory cannot be listed: its path is too long, a file stands in its place, or the path
of one of its entries is too long. -/
inductive Desk.Unlisted (desk : Desk) : Prop where
  | tooLong (found : desk.files.find desk.store.directory = .error .nameTooLong)
  | file {place : List String} {text : String}
      (found : desk.files.find desk.store.directory = .ok (place, .file text))
  | entryTooLong {place : List String} {name : String} {entry : FileEntry}
      (found : desk.files.find desk.store.directory = .ok (place, .directory))
      (held : desk.files.entry? (place ++ [name]) = some entry)
      (long : FileTree.pathLimit ≤ (FilePath.child desk.store.directory name).utf8ByteSize)

theorem idsBelow_of_absent (absent : desk.files.exists? desk.store.directory = .ok false) :
    idsBelow desk.files desk.store.directory = .ok [] := by
  rw [idsBelow, absent]

theorem idsBelow_of_present (present : desk.files.exists? desk.store.directory = .ok true) :
    idsBelow desk.files desk.store.directory =
      (desk.files.survey desk.store.directory).map (·.filterMap idOf) := by
  rw [idsBelow, present]

/-- A listing that answers has seen the whole directory, if there is one. -/
theorem idsBelow_eq_ok (listed : idsBelow desk.files desk.store.directory = .ok ids) :
    desk.files.exists? desk.store.directory = .ok false ∧ ids = [] ∨
      ∃ place, desk.files.exists? desk.store.directory = .ok true ∧
        desk.files.find desk.store.directory = .ok (place, .directory) ∧
        ids = (desk.files.childrenAt place).filterMap idOf ∧
        ∀ child ∈ desk.files.childrenAt place,
          (FilePath.child desk.store.directory child.1).utf8ByteSize < FileTree.pathLimit := by
  cases known : desk.files.exists? desk.store.directory with
  | error failure =>
      rw [idsBelow, known] at listed
      cases listed
  | ok present =>
      cases present with
      | false =>
          rw [idsBelow_of_absent known] at listed
          cases listed
          exact .inl ⟨rfl, rfl⟩
      | true =>
          rw [idsBelow_of_present known] at listed
          cases surveyed : desk.files.survey desk.store.directory with
          | error failure =>
              rw [surveyed] at listed
              cases listed
          | ok children =>
              rw [surveyed] at listed
              cases listed
              obtain ⟨place, found, rfl, short⟩ := FileTree.survey_eq_ok_iff.mp surveyed
              exact .inr ⟨place, rfl, found, rfl, short⟩

theorem Desk.Shelves.present (shelves : desk.Shelves id entry) (rooted : desk.files.Rooted) :
    desk.files.exists? desk.store.directory = .ok true := by
  obtain ⟨place, found, -⟩ := shelves.find rooted
  exact FileTree.exists?_eq_true_iff.mpr ⟨shelves.1, _, found⟩

theorem Desk.Shelves.unique {other : FileEntry} (shelves : desk.Shelves id entry)
    (also : desk.Shelves id other) : entry = other := by
  obtain ⟨-, place, located, held⟩ := shelves
  obtain ⟨-, again, locatedAgain, heldAgain⟩ := also
  cases located.symm.trans locatedAgain
  exact Option.some.inj (held.symm.trans heldAgain)

/-- A listing of the files, and `holds`, which takes a directory for a session as well, speak of the
same ids when no strange entry is in the directory. -/
theorem shows_sessions_iff
    (shown : ∀ id, id ∈ ids ↔ ∃ text, desk.Shelves id (.file text))
    (told : ∀ id, SessionStore.checkId id = .ok () →
      (((holds id).perform desk).1 = .ok true ↔ id ∈ ids ∨ desk.Shelves id .directory)) :
    (∀ id, id ∈ ids ↔
        SessionStore.checkId id = .ok () ∧ ((holds id).perform desk).1 = .ok true) ↔
      (∀ id text, desk.Shelves id (.file text) → SessionStore.checkId id = .ok ()) ∧
        ∀ id, SessionStore.checkId id = .ok () → ¬ desk.Shelves id .directory := by
  constructor
  · intro same
    refine ⟨fun id text shelves => ((same id).mp ((shown id).mpr ⟨text, shelves⟩)).1, ?_⟩
    intro id accepted shelves
    have isSession := (told id accepted).mpr (.inr shelves)
    obtain ⟨text, isFile⟩ := (shown id).mp ((same id).mpr ⟨accepted, isSession⟩)
    cases isFile.unique shelves
  · rintro ⟨checked, noDirectory⟩ id
    constructor
    · intro member
      obtain ⟨text, shelves⟩ := (shown id).mp member
      have accepted := checked id text shelves
      exact ⟨accepted, (told id accepted).mpr (.inl member)⟩
    · rintro ⟨accepted, isSession⟩
      exact ((told id accepted).mp isSession).resolve_right (noDirectory id accepted)

variable (proper : desk.files.Proper)
  (listed : idsBelow desk.files desk.store.directory = .ok ids)

include proper listed

/-- The ids that are listed are those of the files of the directory, each once. -/
theorem mem_idsBelow_iff (id : String) :
    id ∈ ids ↔ ∃ text, desk.Shelves id (.file text) := by
  rcases idsBelow_eq_ok listed with ⟨absent, rfl⟩ | ⟨place, present, found, rfl, -⟩
  · refine ⟨fun member => absurd member List.not_mem_nil, ?_⟩
    rintro ⟨text, shelves⟩
    rw [shelves.present proper.toRooted] at absent
    cases absent
  · obtain ⟨located, -⟩ := FileTree.find_eq_ok_iff.mp found
    rw [List.mem_filterMap]
    constructor
    · rintro ⟨child, member, isId⟩
      obtain ⟨text, rfl⟩ := idOf_eq_some_iff.mp isId
      exact ⟨text, (FileTree.exists?_eq_true_iff.mp present).1, place, located,
        proper.mem_childrenAt.mp member⟩
    · rintro ⟨text, shelves⟩
      obtain ⟨again, foundAgain, held⟩ := shelves.find proper.toRooted
      rw [found] at foundAgain
      cases foundAgain
      exact ⟨_, proper.mem_childrenAt.mpr held, idOf_eq_some_iff.mpr ⟨text, rfl⟩⟩

theorem nodup_idsBelow : ids.Nodup := by
  rcases idsBelow_eq_ok listed with ⟨-, rfl⟩ | ⟨place, -, -, rfl, -⟩
  · exact List.nodup_nil
  · rw [List.Nodup, List.pairwise_filterMap]
    refine (List.pairwise_map.mp (proper.names_nodup place)).imp fun apart => ?_
    rintro id isId other isOther rfl
    obtain ⟨text, rfl⟩ := idOf_eq_some_iff.mp isId
    obtain ⟨otherText, rfl⟩ := idOf_eq_some_iff.mp isOther
    exact apart rfl

/-- Whoever can list the directory can ask for the sessions in it, and is told of whatever stands in
their places. -/
theorem holds_iff_of_listed (faithful : desk.store.Faithful)
    (covers : desk.files.Covers desk.store.directory) (nonempty : desk.store.directory ≠ "")
    (accepted : SessionStore.checkId id = .ok ()) :
    ((holds id).perform desk).1 = .ok true ↔ ∃ entry, desk.Shelves id entry := by
  have isName := SessionStore.isName_file accepted
  rw [answer_holds faithful, accepted]
  show desk.files.exists? (desk.store.file id) = .ok true ↔ _
  rw [FileTree.exists?_eq_true_iff, SessionStore.file, FileTree.isNameable_child,
    Bool.and_eq_true]
  constructor
  · rintro ⟨⟨nameable, -⟩, ⟨there, entry⟩, found⟩
    obtain ⟨located, held⟩ := FileTree.find_eq_ok_iff.mp found
    obtain ⟨place, above, rfl⟩ := FileTree.locate_of_child covers nonempty isName located
    exact ⟨entry, nameable, place, above, held⟩
  · rintro ⟨entry, shelves⟩
    obtain ⟨place, found, held⟩ := shelves.find proper.toRooted
    obtain ⟨located, isDirectory⟩ := FileTree.find_eq_ok_iff.mp found
    have member := proper.mem_childrenAt.mpr held
    obtain ⟨-, nameable, nameShort⟩ :=
      proper.named place _ entry (FileTree.mem_childrenAt.mp member)
    rcases idsBelow_eq_ok listed with ⟨absent, -⟩ | ⟨again, -, foundAgain, -, short⟩
    · rw [shelves.present proper.toRooted] at absent
      cases absent
    · rw [found] at foundAgain
      cases foundAgain
      have fits : FileTree.Fits desk.store.directory (id ++ SessionStore.suffix) :=
        ⟨isName, nameShort, short _ member⟩
      have childLocated := FileTree.locate_child covers nonempty fits located isDirectory
      exact ⟨⟨shelves.1, nameable⟩, _, FileTree.find_eq_ok_iff.mpr ⟨childLocated, held⟩⟩

omit listed

theorem idsBelow_error_iff :
    (∃ failure, idsBelow desk.files desk.store.directory = .error failure) ↔
      FileTree.isNameable desk.store.directory = true ∧ desk.Unlisted := by
  constructor
  · rintro ⟨failure, failed⟩
    cases known : desk.files.exists? desk.store.directory with
    | error refused => exact FileTree.exists?_eq_error known |>.imp_right .tooLong
    | ok present =>
        cases present with
        | false =>
            rw [idsBelow_of_absent known] at failed
            cases failed
        | true =>
            obtain ⟨nameable, ⟨place, entry⟩, found⟩ := FileTree.exists?_eq_true_iff.mp known
            refine ⟨nameable, ?_⟩
            cases entry with
            | file text => exact .file found
            | directory =>
                by_contra listable
                have short : ∀ child ∈ desk.files.childrenAt place, _ := fun child member =>
                  Nat.not_le.mp fun long => listable <|
                    .entryTooLong found (proper.mem_childrenAt.mp member) long
                have surveyed := FileTree.survey_eq_ok_iff.mpr ⟨place, found, rfl, short⟩
                rw [idsBelow_of_present known, surveyed] at failed
                cases failed
  · rintro ⟨nameable, unlisted⟩
    cases listed : idsBelow desk.files desk.store.directory with
    | error failure => exact ⟨failure, rfl⟩
    | ok ids =>
        exfalso
        have found : ∃ item, desk.files.find desk.store.directory = .ok item := by
          cases known : desk.files.find desk.store.directory with
          | ok item => exact ⟨item, rfl⟩
          | error fault =>
              cases unlisted with
              | tooLong found =>
                  rw [idsBelow, FileTree.exists?, nameable, found] at listed
                  cases listed
              | file found => cases known.symm.trans found
              | entryTooLong found => cases known.symm.trans found
        have present := FileTree.exists?_eq_true_iff.mpr ⟨nameable, found⟩
        rcases idsBelow_eq_ok listed with ⟨absent, -⟩ | ⟨place, -, known, -, short⟩
        · cases present.symm.trans absent
        · cases unlisted with
          | tooLong found => cases known.symm.trans found
          | file found => cases known.symm.trans found
          | entryTooLong found held long =>
              cases known.symm.trans found
              exact absurd long (Nat.not_le.mpr (short _ (proper.mem_childrenAt.mpr held)))

end Shelf

end Session

namespace StoreEvent

open Session

/-- Whatever has been done with a store and its files: a listing answers unless the directory cannot
be listed, and changes nothing. It shows, each once, the ids for which there is a file in the
directory. An id that is accepted has a session if a file or a directory stands in its place. So a
listing shows the accepted ids that have a session exactly when no file stands in the place of an id
that is refused and no directory in that of one that is accepted. -/
theorem list_iff_holds (path : String) (files : FileTree) (log : List LogRecord)
    (history : List StoreEvent) :
    let desk := history.foldl perform ⟨.ofPath path, files, log⟩
    desk.files.Proper → desk.files.Covers desk.store.directory →
      ((list).perform desk).2 = desk ∧
      ((∃ failure, ((list).perform desk).1 = .error failure) ↔
        FileTree.isNameable desk.store.directory = true ∧ desk.Unlisted) ∧
      ∀ ids, ((list).perform desk).1 = .ok ids →
        ids.Nodup ∧
        (∀ id, id ∈ ids ↔ ∃ text, desk.Shelves id (.file text)) ∧
        (∀ id, SessionStore.checkId id = .ok () →
          (((holds id).perform desk).1 = .ok true ↔
            id ∈ ids ∨ desk.Shelves id .directory)) ∧
        ((∀ id, id ∈ ids ↔
            SessionStore.checkId id = .ok () ∧ ((holds id).perform desk).1 = .ok true) ↔
          (∀ id text, desk.Shelves id (.file text) → SessionStore.checkId id = .ok ()) ∧
            ∀ id, SessionStore.checkId id = .ok () → ¬ desk.Shelves id .directory) := by
  intro desk proper covers
  have agree := performAll_ofPath path files log history
  have faithful : desk.store.Faithful := agree.faithful
  have nonempty : desk.store.directory ≠ "" :=
    agree.works ▸ FilePath.normalize_ne_empty path
  rw [perform_list]
  refine ⟨rfl, ?_, fun listed answered => ?_⟩
  · rw [← idsBelow_error_iff proper]
    cases idsBelow desk.files desk.store.directory with
    | error failure => exact ⟨fun _ => ⟨failure, rfl⟩, fun _ => ⟨failure, rfl⟩⟩
    | ok ids => exact ⟨nofun, nofun⟩
  obtain ⟨ids, found, rfl⟩ : ∃ ids, idsBelow desk.files desk.store.directory = .ok ids ∧
      ids.mergeSort (fun a b => !(decide (b < a))) = listed := by
    cases found : idsBelow desk.files desk.store.directory with
    | error failure =>
        rw [found] at answered
        cases answered
    | ok ids =>
        rw [found] at answered
        exact ⟨ids, rfl, Except.ok.inj answered⟩
  have sorted := List.mergeSort_perm ids fun a b => !(decide (b < a))
  have shown (id : String) : id ∈ ids.mergeSort (fun a b => !(decide (b < a))) ↔
      ∃ text, desk.Shelves id (.file text) := by
    rw [sorted.mem_iff, mem_idsBelow_iff proper found]
  have told (id : String) (accepted : SessionStore.checkId id = .ok ()) :
      ((holds id).perform desk).1 = .ok true ↔
        id ∈ ids.mergeSort (fun a b => !(decide (b < a))) ∨ desk.Shelves id .directory := by
    rw [holds_iff_of_listed proper found faithful covers nonempty accepted, shown]
    constructor
    · rintro ⟨entry, shelves⟩
      cases entry with
      | directory => exact .inr shelves
      | file text => exact .inl ⟨text, shelves⟩
    · rintro (⟨text, shelves⟩ | shelves)
      · exact ⟨_, shelves⟩
      · exact ⟨_, shelves⟩
  exact ⟨sorted.nodup_iff.mpr (nodup_idsBelow proper found), shown, told,
    shows_sessions_iff shown told⟩

/-- Others have put a file in the place of an id that is refused, which is listed, and a directory
in that of an id that is accepted, which is not. -/
theorem list_iff_holds_strangers :
    let history := [called (.save "b" (.map [])), touched fun files =>
      (files.put ["s", ".json"] (.file "")).put ["s", "a.json"] .directory]
    let desk := history.foldl perform ⟨.ofPath "s", {}, []⟩
    desk.files.Proper ∧ desk.files.Covers desk.store.directory ∧
      ∃ ids, ((list).perform desk).1 = .ok ids ∧
        ("b" ∈ ids ∧ "" ∈ ids ∧ ∃ failure, SessionStore.checkId "" = .error failure) ∧
        "a" ∉ ids ∧ ((holds "a").perform desk).1 = .ok true := by
  intro history desk
  have works : desk.store.directory = "s" := by decide +kernel
  have proper : desk.files.Proper := by
    have names : (desk.files.entries.map (·.1)).filterMap (·.getLast?) =
        ["s", "b.json", ".json", "a.json"] := by decide +kernel
    refine ⟨⟨by decide +kernel, by decide +kernel⟩, by decide +kernel,
      fun place name entry member => ?_⟩
    have known : name ∈ ["s", "b.json", ".json", "a.json"] :=
      names ▸ List.mem_filterMap.mpr ⟨_, List.mem_map_of_mem member, List.getLast?_concat⟩
    simp only [List.mem_cons, List.not_mem_nil, or_false] at known
    rcases known with rfl | rfl | rfl | rfl
    all_goals exact ⟨⟨by decide, by decide, by decide, by decide⟩, by decide, by decide⟩
  have covers : desk.files.Covers desk.store.directory := by
    rw [works]
    exact .inr ⟨by decide +kernel, by decide +kernel⟩
  have shelved {id : String} {entry : FileEntry}
      (held : desk.files.entry? (["s"] ++ [id ++ ".json"]) = some entry) :
      desk.Shelves id entry :=
    ⟨by decide +kernel, ["s"], by decide +kernel, held⟩
  obtain ⟨-, -, answers⟩ := list_iff_holds "s" {} [] history proper covers
  cases listed : ((list).perform desk).1 with
  | error failure =>
      have answered : ((list).perform desk).1.isOk = true := by decide +kernel
      rw [listed] at answered
      cases answered
  | ok ids =>
      obtain ⟨-, shown, told, -⟩ := answers ids listed
      have saved : desk.files.entry? (["s"] ++ ["b" ++ ".json"]) =
          some (.file "\x7b\n  \"cookies\": [],\n  \"origins\": []\n\x7d") := by decide +kernel
      have directory : desk.files.entry? (["s"] ++ ["a" ++ ".json"]) = some .directory := by
        decide +kernel
      have strange : desk.files.entry? (["s"] ++ ["" ++ ".json"]) = some (.file "") := by
        decide +kernel
      refine ⟨proper, covers, ids, rfl, ⟨(shown "b").mpr ⟨_, shelved saved⟩,
        (shown "").mpr ⟨_, shelved strange⟩, _, rfl⟩, fun member => ?_,
        (told "a" rfl).mpr (.inr (shelved directory))⟩
      obtain ⟨text, isFile⟩ := (shown "a").mp member
      cases isFile.unique (shelved directory)

end StoreEvent

end WebHarvest
