import WebHarvest.Proofs.Session.Store

/-!
# What a store remembers makes no difference

A store remembers where it has written sessions. Whatever has been done with it, and whatever others
have done to the files in between, the path that it remembers for an id is the one that a new store
in the same directory has for it. So no operation can tell the two apart: it gives the same answer,
leaves the same files and reports the same.
-/

set_option autoImplicit false

namespace WebHarvest

open Session

/-- A store that remembers nothing but the files of ids that it accepts. -/
structure SessionStore.Faithful (store : SessionStore) : Prop where
  indexed : store.Indexed
  accepted : ∀ entry ∈ store.index, checkId entry.1 = .ok ()

namespace SessionStore.Faithful

variable {store : SessionStore}

theorem ofPath (path : String) : (SessionStore.ofPath path).Faithful where
  indexed := indexed_ofPath path
  accepted _ member := absurd member List.not_mem_nil

theorem forget (faithful : store.Faithful) (id : String) : (store.forget id).Faithful where
  indexed := faithful.indexed.forget id
  accepted entry member := faithful.accepted entry (List.mem_filter.mp member).1

theorem remember (faithful : store.Faithful) {id : String} (accepted : checkId id = .ok ()) :
    (store.remember id (store.file id)).Faithful where
  indexed := faithful.indexed.remember id
  accepted entry member := by
    unfold SessionStore.remember at member
    split at member
    · obtain ⟨⟨other, path⟩, known, rfl⟩ := List.mem_map.mp member
      have before := faithful.accepted _ known
      dsimp only
      split
      · rename_i here
        rwa [beq_iff_eq.mp here]
      · exact before
    · rcases List.mem_append.mp member with known | last
      · exact faithful.accepted entry known
      · obtain rfl := List.mem_singleton.mp last
        exact accepted

end SessionStore.Faithful

namespace Session

/-- Two desks whose stores work in one directory and that differ at most in what their stores
remember. -/
structure Desk.Agree (directory : String) (desk other : Desk) : Prop where
  works : desk.store.directory = directory
  otherWorks : other.store.directory = directory
  faithful : desk.store.Faithful
  otherFaithful : other.store.Faithful
  files : desk.files = other.files
  log : desk.log = other.log

/-- An operation that answers and does the same on desks that agree, and leaves them so. -/
def Access.Forgetful {α : Type} (directory : String) (access : Access α) : Prop :=
  ∀ ⦃desk other : Desk⦄, desk.Agree directory other →
    (access.perform desk).1 = (access.perform other).1 ∧
      (access.perform desk).2.Agree directory (access.perform other).2

section Laws

variable {α β : Type} {directory : String}

theorem forgetful_settle (outcome : Except Failure α) :
    (settle outcome).Forgetful directory :=
  fun _ _ agree => ⟨rfl, agree⟩

theorem forgetful_pure (result : α) : (pure result : Access α).Forgetful directory :=
  forgetful_settle (.ok result)

theorem forgetful_throw (failure : Failure) :
    (throw failure : Access α).Forgetful directory :=
  forgetful_settle (.error failure)

theorem forgetful_bind {access : Access α} {next : α → Access β}
    (first : access.Forgetful directory) (rest : ∀ result, (next result).Forgetful directory) :
    (access >>= next).Forgetful directory := by
  intro desk other agree
  obtain ⟨same, agreeAfter⟩ := first agree
  rw [perform_bind, perform_bind]
  cases ran : access.perform desk with
  | mk outcome middle =>
      cases otherRan : access.perform other with
      | mk otherOutcome otherMiddle =>
          rw [ran, otherRan] at same agreeAfter
          dsimp only at same agreeAfter
          subst same
          cases outcome with
          | ok result => exact rest result agreeAfter
          | error failure => exact ⟨rfl, agreeAfter⟩

/-- What comes after a check may rely on it. -/
theorem forgetful_settle_bind {outcome : Except Failure α} {next : α → Access β}
    (rest : ∀ result, outcome = .ok result → (next result).Forgetful directory) :
    (settle outcome >>= next).Forgetful directory := by
  cases outcome with
  | ok result => exact rest result rfl
  | error failure => exact forgetful_settle (.error failure)

/-- What an operation takes from the desk is to depend on the directory alone. -/
theorem forgetful_get_bind {next : Desk → Access α}
    (same : ∀ desk other : Desk, desk.store.directory = directory →
      other.store.directory = directory → next desk = next other)
    (forgetful : ∀ desk : Desk, desk.store.directory = directory →
      (next desk).Forgetful directory) : (get >>= next).Forgetful directory := by
  intro desk other agree
  rw [perform_bind, perform_bind, perform_get, perform_get]
  dsimp only
  rw [same other desk agree.otherWorks agree.works]
  exact forgetful desk agree.works agree

theorem forgetful_lift {access : Access α} (forgetful : access.Forgetful directory) :
    Access.Forgetful directory (ExceptT.lift access.run : Access (Except Failure α)) := by
  intro desk other agree
  rw [perform_lift, perform_lift]
  exact ⟨congrArg Except.ok (forgetful agree).1, (forgetful agree).2⟩

end Laws

section Operations

variable {directory : String}

theorem forgetful_inspect {α : Type} (look : FileTree → Except Failure α) :
    (inspect look).Forgetful directory := by
  intro desk other agree
  rw [perform_inspect, perform_inspect, agree.files]
  exact ⟨rfl, agree⟩

/-- A change of the files does not depend on what is remembered, and keeps it. -/
theorem forgetful_change (edit : FileTree → Except Failure FileTree) :
    (change edit).Forgetful directory := by
  intro desk other agree
  cases edited : edit desk.files with
  | error failure =>
      rw [perform_change_error edited, perform_change_error (agree.files ▸ edited)]
      exact ⟨rfl, agree⟩
  | ok files =>
      rw [perform_change edited, perform_change (agree.files ▸ edited)]
      exact ⟨rfl, agree.works, agree.otherWorks, agree.faithful, agree.otherFaithful, rfl,
        agree.log⟩

theorem forgetful_makeDirectory : makeDirectory.Forgetful directory := by
  intro desk other agree
  rw [perform_makeDirectory, perform_makeDirectory, agree.works, agree.otherWorks, agree.files]
  exact ⟨rfl, agree.works, agree.otherWorks, agree.faithful, agree.otherFaithful, rfl, agree.log⟩

theorem forgetful_report (message : String) (extra : Record) :
    (report message extra).Forgetful directory := by
  intro desk other agree
  rw [perform_report, perform_report, agree.log]
  exact ⟨rfl, agree.works, agree.otherWorks, agree.faithful, agree.otherFaithful, agree.files, rfl⟩

theorem forgetful_forget (id : String) : (forget id).Forgetful directory := by
  intro desk other agree
  rw [perform_forget, perform_forget]
  exact ⟨rfl, agree.works, agree.otherWorks, agree.faithful.forget id,
    agree.otherFaithful.forget id, agree.files, agree.log⟩

theorem forgetful_remember {id path : String} (accepted : SessionStore.checkId id = .ok ())
    (isFile : path = FilePath.child directory (id ++ SessionStore.suffix)) :
    Access.Forgetful directory
      (modify fun desk => { desk with store := desk.store.remember id path }) := by
  intro desk other agree
  have own : path = desk.store.file id := by rw [isFile, SessionStore.file, agree.works]
  have others : path = other.store.file id := by rw [isFile, SessionStore.file, agree.otherWorks]
  rw [perform_modify, perform_modify]
  refine ⟨rfl, ?_, ?_, ?_, ?_, agree.files, agree.log⟩
  · exact (SessionStore.directory_remember _ _).trans agree.works
  · exact (SessionStore.directory_remember _ _).trans agree.otherWorks
  · dsimp only
    rw [own]
    exact agree.faithful.remember accepted
  · dsimp only
    rw [others]
    exact agree.otherFaithful.remember accepted

/-- The path of an accepted id is that of its file, remembered or not. -/
theorem perform_pathOf_of_faithful {desk : Desk} (faithful : desk.store.Faithful) (id : String) :
    (pathOf id).perform desk =
      ((SessionStore.checkId id).map fun _ => desk.store.file id, desk) := by
  cases accepted : SessionStore.checkId id with
  | ok =>
      rw [perform_pathOf accepted, faithful.indexed.pathOf]
      rfl
  | error failure =>
      unfold pathOf
      rw [perform_bind, perform_settle, accepted]
      rfl

theorem forgetful_pathOf (id : String) : (pathOf id).Forgetful directory := by
  intro desk other agree
  rw [perform_pathOf_of_faithful agree.faithful, perform_pathOf_of_faithful agree.otherFaithful,
    SessionStore.file, SessionStore.file, agree.works, agree.otherWorks]
  exact ⟨rfl, agree⟩

theorem forgetful_writeWhole (temporary file : String) (text : Except Failure String) :
    (writeWhole temporary file text).Forgetful directory := by
  unfold writeWhole
  refine forgetful_bind (forgetful_lift ?_) fun outcome => ?_
  · exact forgetful_bind (forgetful_settle text) fun written =>
      forgetful_bind (forgetful_change _) fun _ => forgetful_change _
  · cases outcome with
    | ok done => exact forgetful_pure ()
    | error failure =>
        refine forgetful_bind (forgetful_inspect _) fun left => ?_
        cases left with
        | true => exact forgetful_bind (forgetful_change _) fun _ => forgetful_throw failure
        | false => exact forgetful_throw failure

theorem forgetful_save (id : String) (state : Value) : (save id state).Forgetful directory := by
  refine forgetful_settle_bind fun _ accepted => ?_
  refine forgetful_bind (forgetful_settle _) fun state => ?_
  refine forgetful_get_bind (fun desk other works otherWorks => ?_) fun desk works => ?_
  · simp only [SessionStore.temporary, SessionStore.file, works, otherWorks]
  · have isFile : desk.store.file id =
        FilePath.child directory (id ++ SessionStore.suffix) := by rw [SessionStore.file, works]
    exact forgetful_bind forgetful_makeDirectory fun _ =>
      forgetful_bind (forgetful_writeWhole _ _ _) fun _ =>
        forgetful_bind (forgetful_remember accepted isFile) fun _ =>
          forgetful_bind (forgetful_report _ _) fun _ => forgetful_pure _

theorem forgetful_load (id : String) : (load id).Forgetful directory := by
  refine forgetful_bind (forgetful_pathOf id) fun path => ?_
  refine forgetful_bind (forgetful_inspect _) fun present => ?_
  cases present with
  | true => exact forgetful_bind (forgetful_inspect _) fun text => forgetful_settle _
  | false => exact forgetful_bind (forgetful_forget id) fun _ => forgetful_throw _

theorem forgetful_holds (id : String) : (holds id).Forgetful directory := by
  refine forgetful_bind (forgetful_pathOf id) fun path => ?_
  refine forgetful_bind (forgetful_inspect _) fun present => ?_
  cases present with
  | true => exact forgetful_pure true
  | false => exact forgetful_bind (forgetful_forget id) fun _ => forgetful_pure false

theorem forgetful_delete (id : String) : (delete id).Forgetful directory := by
  refine forgetful_bind (forgetful_pathOf id) fun path => ?_
  refine forgetful_bind (forgetful_forget id) fun _ => ?_
  refine forgetful_bind (forgetful_inspect _) fun present => ?_
  cases present with
  | true =>
      exact forgetful_bind (forgetful_change _) fun _ =>
        forgetful_bind (forgetful_report _ _) fun _ => forgetful_pure true
  | false => exact forgetful_pure false

theorem forgetful_list : Session.list.Forgetful directory := by
  refine forgetful_get_bind (fun desk other works otherWorks => ?_) fun desk works => ?_
  · rw [works, otherWorks]
  · refine forgetful_bind (forgetful_inspect _) fun present => ?_
    cases present with
    | true => exact forgetful_bind (forgetful_inspect _) fun children => forgetful_pure _
    | false => exact forgetful_pure []

end Operations

end Session

/-- What may happen around a store: a call on it, or that others change the files. -/
inductive StoreEvent where
  | called (call : StoreCall)
  | touched (edit : FileTree → FileTree)

theorem StoreCall.forgetful (directory : String) (call : StoreCall) :
    call.access.Forgetful directory := by
  cases call with
  | save id source => exact forgetful_bind (forgetful_save id source) fun _ => forgetful_pure _
  | load id => exact forgetful_bind (forgetful_load id) fun _ => forgetful_pure _
  | holds id => exact forgetful_bind (forgetful_holds id) fun _ => forgetful_pure _
  | delete id => exact forgetful_bind (forgetful_delete id) fun _ => forgetful_pure _
  | list => exact forgetful_bind forgetful_list fun _ => forgetful_pure _

namespace StoreEvent

def perform (desk : Desk) : StoreEvent → Desk
  | called call => (call.access.perform desk).2
  | touched edit => { desk with files := edit desk.files }

/-- Desks that agree still agree after the same event. -/
theorem perform_agree {directory : String} {desk other : Desk} (agree : desk.Agree directory other)
    (event : StoreEvent) : (event.perform desk).Agree directory (event.perform other) := by
  cases event with
  | called call => exact (call.forgetful directory agree).2
  | touched edit =>
      exact ⟨agree.works, agree.otherWorks, agree.faithful, agree.otherFaithful,
        congrArg edit agree.files, agree.log⟩

theorem performAll_agree {directory : String} {desk other : Desk}
    (agree : desk.Agree directory other) (history : List StoreEvent) :
    (history.foldl perform desk).Agree directory (history.foldl perform other) := by
  induction history generalizing desk other with
  | nil => exact agree
  | cons event rest ih => exact ih (perform_agree agree event)

/-- After any history a store agrees with a new one in the same directory. -/
theorem performAll_ofPath (path : String) (files : FileTree) (log : List LogRecord)
    (history : List StoreEvent) :
    let desk := history.foldl perform ⟨.ofPath path, files, log⟩
    desk.Agree (FilePath.normalize path) { desk with store := .ofPath path } := by
  intro desk
  have works := SessionStore.directory_ofPath path
  have begins : Desk.Agree (FilePath.normalize path) ⟨.ofPath path, files, log⟩
      ⟨.ofPath path, files, log⟩ := ⟨works, works, .ofPath path, .ofPath path, rfl, rfl⟩
  have known := performAll_agree begins history
  exact ⟨known.works, works, known.faithful, .ofPath path, rfl, rfl⟩

/-- After any history of calls on a store and of changes by others, each operation gives the answer
that it gives on a new store in the same directory, leaves the same files and reports the same; and
the path that the store remembers for an id is the one that a new store has for it. -/
theorem memory_immaterial (path : String) (files : FileTree) (log : List LogRecord)
    (history : List StoreEvent) :
    let desk := history.foldl perform ⟨.ofPath path, files, log⟩
    let fresh : Desk := { desk with store := .ofPath path }
    (∀ call : StoreCall,
      (call.access.perform desk).1 = (call.access.perform fresh).1 ∧
        (call.access.perform desk).2.files = (call.access.perform fresh).2.files ∧
        (call.access.perform desk).2.log = (call.access.perform fresh).2.log) ∧
    (∀ id, ∃ answer, (pathOf id).perform desk = (answer, desk) ∧
      (pathOf id).perform fresh = (answer, fresh)) ∧
    ∀ entry ∈ desk.store.index, (pathOf entry.1).perform fresh = (.ok entry.2, fresh) := by
  intro desk fresh
  have agree : desk.Agree (FilePath.normalize path) fresh :=
    performAll_ofPath path files log history
  have sameFile (id : String) : desk.store.file id = fresh.store.file id := by
    rw [SessionStore.file, SessionStore.file, agree.works, agree.otherWorks]
  refine ⟨fun call => ?_, fun id => ?_, fun entry member => ?_⟩
  · obtain ⟨answer, after⟩ := call.forgetful _ agree
    exact ⟨answer, after.files, after.log⟩
  · refine ⟨_, perform_pathOf_of_faithful agree.faithful id, ?_⟩
    rw [perform_pathOf_of_faithful agree.otherFaithful, sameFile]
  · rw [perform_pathOf_of_faithful agree.otherFaithful, agree.faithful.accepted entry member,
      agree.faithful.indexed entry member, sameFile]
    rfl

/-- A session is saved, others remove all files, and the store still remembers where it was. -/
theorem memory_immaterial_stale :
    let cookies : List Record := [[("name", .text "sid")]]
    let source : Value := .map [(.text "cookies", .list (cookies.map .record))]
    let history := [called (.save "a" source), touched fun files => { files with entries := [] }]
    let desk := history.foldl perform ⟨.ofPath "./sessions", {}, []⟩
    let fresh : Desk := { desk with store := .ofPath "./sessions" }
    desk.store.index = [("a", "sessions/a.json")] ∧ fresh.store.index = [] ∧
      (pathOf "a").perform fresh = (.ok "sessions/a.json", fresh) ∧
      ((StoreCall.load "a").access.perform desk).1 =
        ((StoreCall.load "a").access.perform fresh).1 := by
  intro cookies source history desk fresh
  have index : desk.store.index = [("a", "sessions/a.json")] := by decide +kernel
  obtain ⟨calls, -, remembered⟩ := memory_immaterial "./sessions" {} [] history
  refine ⟨index, rfl, remembered ("a", "sessions/a.json") ?_, (calls (.load "a")).1⟩
  exact index ▸ List.mem_singleton_self _

end StoreEvent

end WebHarvest
