import WebHarvest.Proofs.Files.Deed
import WebHarvest.Proofs.Session.Mishap

/-!
# Calls keep to the files of their id

A call with an id that is refused does nothing. With any other id it has to do with two paths, both
of entries directly in the directory of the store: that of the session file and, when it saves, that
of the temporary file. No two ids share a session file, and no temporary file is a session file, so
whatever is done with one id leaves the files of all others alone.
-/

set_option autoImplicit false

namespace WebHarvest

namespace Session

/-- An operation that is a plan of certain deeds: whatever the files are, it answers, changes the
files and leaves the store and the log as the plan says. -/
def Access.ConfinedTo {α : Type} (allowed : FileDeed → Prop) (store : SessionStore)
    (log : List LogRecord) (access : Access α) : Prop :=
  ∃ plan : FilePlan (Except Failure α × SessionStore × List LogRecord),
    plan.Within allowed ∧ ∀ files, access.perform ⟨store, files, log⟩ =
      let ((outcome, store, log), files) := plan.run files
      (outcome, ⟨store, files, log⟩)

section Laws

variable {α β : Type} {allowed : FileDeed → Prop} {store : SessionStore} {log : List LogRecord}

theorem confined_settle (outcome : Except Failure α) :
    (settle outcome).ConfinedTo allowed store log :=
  ⟨.done (outcome, store, log), .done, fun _ => rfl⟩

theorem confined_pure (result : α) : (pure result : Access α).ConfinedTo allowed store log :=
  confined_settle (.ok result)

theorem confined_throw (failure : Failure) :
    (throw failure : Access α).ConfinedTo allowed store log :=
  confined_settle (.error failure)

/-- An edit of what is remembered and reported. -/
theorem confined_modify {edit : Desk → Desk}
    (edits : ∀ files, edit ⟨store, files, log⟩ = { edit ⟨store, {}, log⟩ with files }) :
    (modify edit : Access Unit).ConfinedTo allowed store log := by
  let edited := edit ⟨store, {}, log⟩
  refine ⟨.done (.ok (), edited.store, edited.log), .done, fun files => ?_⟩
  rw [perform_modify, edits]
  rfl

theorem confined_bind {access : Access α} {next : α → Access β}
    (first : access.ConfinedTo allowed store log)
    (rest : ∀ result store log, (next result).ConfinedTo allowed store log) :
    (access >>= next).ConfinedTo allowed store log := by
  obtain ⟨plan, within, runs⟩ := first
  choose further withinFurther runsFurther using rest
  let goOn : Except Failure α × SessionStore × List LogRecord →
      FilePlan (Except Failure β × SessionStore × List LogRecord)
    | (.ok result, store, log) => further result store log
    | (.error failure, store, log) => .done (.error failure, store, log)
  refine ⟨plan.bind goOn, within.bind ?_, fun files => ?_⟩
  · rintro ⟨outcome, store, log⟩
    cases outcome with
    | ok result => exact withinFurther result store log
    | error failure => exact .done
  · rw [perform_bind, runs, FilePlan.run_bind]
    rcases plan.run files with ⟨⟨outcome, store, log⟩, after⟩
    cases outcome with
    | ok result => exact runsFurther result store log after
    | error failure => rfl

/-- What comes after a check may rely on it. -/
theorem confined_settle_bind {outcome : Except Failure α} {next : α → Access β}
    (rest : ∀ result, outcome = .ok result → (next result).ConfinedTo allowed store log) :
    (settle outcome >>= next).ConfinedTo allowed store log := by
  cases outcome with
  | ok result => exact rest result rfl
  | error failure => exact confined_settle (.error failure)

/-- What an operation takes from the desk is to be the store or the log. -/
theorem confined_get_bind {next : Desk → Access α}
    (same : ∀ files, next ⟨store, files, log⟩ = next ⟨store, {}, log⟩)
    (confined : (next ⟨store, {}, log⟩).ConfinedTo allowed store log) :
    (get >>= next).ConfinedTo allowed store log := by
  obtain ⟨plan, within, runs⟩ := confined
  refine ⟨plan, within, fun files => ?_⟩
  rw [perform_bind, perform_get]
  dsimp only
  rw [same, runs]

theorem confined_lift {access : Access α} (confined : access.ConfinedTo allowed store log) :
    Access.ConfinedTo allowed store log
      (ExceptT.lift access.run : Access (Except Failure α)) := by
  obtain ⟨plan, within, runs⟩ := confined
  refine ⟨plan.bind fun (outcome, store, log) => .done (.ok outcome, store, log),
    within.bind fun _ => .done, fun files => ?_⟩
  rw [perform_lift, runs, FilePlan.run_bind]
  rfl

end Laws

section Deeds

variable {allowed : FileDeed → Prop} {store : SessionStore} {log : List LogRecord}
variable {path : String}

theorem confined_deed {deed : FileDeed} {access : Access deed.Reply} (may : allowed deed)
    (performs : ∀ files, access.perform ⟨store, files, log⟩ =
      ((deed.perform files).1, ⟨store, (deed.perform files).2, log⟩)) :
    access.ConfinedTo allowed store log :=
  ⟨.next deed fun reply => .done (reply, store, log), .next may fun _ => .done, performs⟩

theorem confined_asks (may : allowed (.asks path)) :
    (inspect (·.exists? path)).ConfinedTo allowed store log :=
  confined_deed may fun _ => perform_inspect _

theorem confined_reads (may : allowed (.reads path)) :
    (inspect (·.read path)).ConfinedTo allowed store log :=
  confined_deed may fun _ => perform_inspect _

theorem perform_change_changed (edit : FileTree → Except Failure FileTree) (desk : Desk) :
    (change edit).perform desk =
      ((FileDeed.changed desk.files (edit desk.files)).1,
        { desk with files := (FileDeed.changed desk.files (edit desk.files)).2 }) := by
  cases edited : edit desk.files with
  | ok files => rw [perform_change edited, FileDeed.changed]
  | error failure => rw [perform_change_error edited, FileDeed.changed]

theorem confined_writes {text : String} (may : allowed (.writes path text)) :
    (change (·.write path text)).ConfinedTo allowed store log :=
  confined_deed may fun _ => perform_change_changed _ _

theorem confined_renames {source : String} (may : allowed (.renames source path)) :
    (change (·.rename source path)).ConfinedTo allowed store log :=
  confined_deed may fun _ => perform_change_changed _ _

theorem confined_removes (may : allowed (.removes path)) :
    (change (·.unlink path)).ConfinedTo allowed store log :=
  confined_deed may fun _ => perform_change_changed _ _

theorem confined_makeDirectory (may : allowed (.makesDirectories store.directory)) :
    makeDirectory.ConfinedTo allowed store log :=
  confined_deed may fun _ => perform_makeDirectory

theorem confined_forget (id : String) : (forget id).ConfinedTo allowed store log :=
  confined_modify fun _ => rfl

theorem confined_report (message : String) (extra : Record) :
    (report message extra).ConfinedTo allowed store log :=
  confined_modify fun _ => rfl

/-- The path of an id is known without asking for a file. -/
theorem confined_pathOf (faithful : store.Faithful) (id : String) :
    (pathOf id).ConfinedTo allowed store log :=
  ⟨.done ((SessionStore.checkId id).map fun _ => store.file id, store, log), .done,
    fun _ => perform_pathOf_of_faithful faithful id⟩

theorem confined_pathOf_bind {α : Type} (faithful : store.Faithful) {id : String}
    {next : String → Access α}
    (rest : SessionStore.checkId id = .ok () →
      (next (store.file id)).ConfinedTo allowed store log) :
    (pathOf id >>= next).ConfinedTo allowed store log := by
  cases accepted : SessionStore.checkId id with
  | ok =>
      obtain ⟨plan, within, runs⟩ := rest accepted
      refine ⟨plan, within, fun files => ?_⟩
      rw [perform_bind, perform_pathOf_of_faithful faithful, accepted, ← runs]
      rfl
  | error failure =>
      refine ⟨.done (.error failure, store, log), .done, fun files => ?_⟩
      rw [perform_bind, perform_pathOf_of_faithful faithful, accepted]
      rfl

end Deeds

/-- A call that is made with an id. -/
inductive IdCall where
  | path
  | save (source : Except Failure Value)
  | load
  | holds
  | delete

namespace IdCall

/-- What a call does; its answer is left out. -/
def access (id : String) : IdCall → Access Unit
  | path => do let _ ← pathOf id
  | save source => do let _ ← saveFrom id source
  | load => do let _ ← Session.load id
  | holds => do let _ ← Session.holds id
  | delete => do let _ ← Session.delete id

/-- The deeds of a call on a store with an id that it accepts. -/
def May (store : SessionStore) (id : String) : IdCall → FileDeed → Prop
  | path, _ => False
  | save _, deed => deed = .makesDirectories store.directory ∨
      (∃ text, deed = .writes (store.temporary id) text) ∨
      deed = .renames (store.temporary id) (store.file id) ∨
      deed = .asks (store.temporary id) ∨ deed = .removes (store.temporary id)
  | load, deed => deed = .asks (store.file id) ∨ deed = .reads (store.file id)
  | holds, deed => deed = .asks (store.file id)
  | delete, deed => deed = .asks (store.file id) ∨ deed = .removes (store.file id)

section Confinement

variable {allowed : FileDeed → Prop} {store : SessionStore} {log : List LogRecord}

theorem confined_writeWhole {temporary file : String}
    (writes : ∀ text, allowed (.writes temporary text))
    (renames : allowed (.renames temporary file)) (asks : allowed (.asks temporary))
    (removes : allowed (.removes temporary)) (text : Except Failure String) :
    (writeWhole temporary file text).ConfinedTo allowed store log := by
  refine confined_bind (confined_lift ?_) fun outcome store log => ?_
  · exact confined_bind (confined_settle text) fun text _ _ =>
      confined_bind (confined_writes (writes text)) fun _ _ _ => confined_renames renames
  · cases outcome with
    | ok done => exact confined_pure ()
    | error failure =>
        refine confined_bind (confined_asks asks) fun left _ _ => ?_
        cases left with
        | true =>
            exact confined_bind (confined_removes removes) fun _ _ _ => confined_throw failure
        | false => exact confined_throw failure

theorem confined_save (faithful : store.Faithful) (id : String)
    (source : Except Failure Value) :
    (saveFrom id source).ConfinedTo ((save source).May store id) store log := by
  refine confined_pathOf_bind faithful fun _ => ?_
  refine confined_settle_bind fun state _ => ?_
  refine confined_settle_bind fun _ _ => ?_
  refine confined_settle_bind fun state _ => ?_
  refine confined_get_bind (fun _ => rfl) ?_
  refine confined_bind (confined_makeDirectory (.inl rfl)) fun _ _ _ => ?_
  refine confined_bind (confined_writeWhole ?_ ?_ ?_ ?_ _) fun _ _ _ => ?_
  · exact fun text => .inr (.inl ⟨text, rfl⟩)
  · exact .inr (.inr (.inl rfl))
  · exact .inr (.inr (.inr (.inl rfl)))
  · exact .inr (.inr (.inr (.inr rfl)))
  · exact confined_bind (confined_modify fun _ => rfl) fun _ _ _ =>
      confined_bind (confined_report _ _) fun _ _ _ => confined_pure _

theorem confined_load (faithful : store.Faithful) (id : String) :
    (Session.load id).ConfinedTo (load.May store id) store log := by
  refine confined_pathOf_bind faithful fun _ => ?_
  refine confined_bind (confined_asks (.inl rfl)) fun present _ _ => ?_
  cases present with
  | true => exact confined_bind (confined_reads (.inr rfl)) fun _ _ _ => confined_settle _
  | false => exact confined_bind (confined_forget id) fun _ _ _ => confined_throw _

theorem confined_holds (faithful : store.Faithful) (id : String) :
    (Session.holds id).ConfinedTo (holds.May store id) store log := by
  refine confined_pathOf_bind faithful fun _ => ?_
  refine confined_bind (confined_asks rfl) fun present _ _ => ?_
  cases present with
  | true => exact confined_pure true
  | false => exact confined_bind (confined_forget id) fun _ _ _ => confined_pure false

theorem confined_delete (faithful : store.Faithful) (id : String) :
    (Session.delete id).ConfinedTo (delete.May store id) store log := by
  refine confined_pathOf_bind faithful fun _ => ?_
  refine confined_bind (confined_forget id) fun _ _ _ => ?_
  refine confined_bind (confined_asks (.inl rfl)) fun present _ _ => ?_
  cases present with
  | true =>
      exact confined_bind (confined_removes (.inr rfl)) fun _ _ _ =>
        confined_bind (confined_report _ _) fun _ _ _ => confined_pure true
  | false => exact confined_pure false

/-- No call has to do with the files except by its own deeds. -/
theorem confined (faithful : store.Faithful) (id : String) (call : IdCall) :
    (call.access id).ConfinedTo (call.May store id) store log := by
  cases call with
  | path => exact confined_bind (confined_pathOf faithful id) fun _ _ _ => confined_pure _
  | save source =>
      exact confined_bind (confined_save faithful id source) fun _ _ _ => confined_pure _
  | load => exact confined_bind (confined_load faithful id) fun _ _ _ => confined_pure _
  | holds => exact confined_bind (confined_holds faithful id) fun _ _ _ => confined_pure _
  | delete => exact confined_bind (confined_delete faithful id) fun _ _ _ => confined_pure _

end Confinement

section Refusal

variable {desk : Desk} {id : String} {failure : Failure}

theorem perform_bind_of_error {α β : Type} {access : Access α} {next : α → Access β}
    (fails : access.perform desk = (.error failure, desk)) :
    (access >>= next).perform desk = (.error failure, desk) := by
  rw [perform_bind, fails]

/-- An id that is refused is refused by every call, which does nothing. -/
theorem perform_of_refused (refused : SessionStore.checkId id = .error failure) (call : IdCall) :
    (call.access id).perform desk = (.error failure, desk) := by
  have noPath : (pathOf id).perform desk = (.error failure, desk) := by
    refine perform_bind_of_error ?_
    rw [perform_settle, refused]
  cases call with
  | path => exact perform_bind_of_error noPath
  | save source => exact perform_bind_of_error (perform_bind_of_error noPath)
  | load => exact perform_bind_of_error (perform_bind_of_error noPath)
  | holds => exact perform_bind_of_error (perform_bind_of_error noPath)
  | delete => exact perform_bind_of_error (perform_bind_of_error noPath)

end Refusal

section Deeds

variable {store : SessionStore} {id : String} {deed : FileDeed} {call : IdCall}

/-- A save makes directories; all other deeds are given paths of the session file and of the
temporary one. -/
theorem May.cases (may : call.May store id deed) :
    (∃ source, call = .save source) ∧ deed = .makesDirectories store.directory ∨
      ∀ path ∈ deed.paths, path = store.file id ∨ path = store.temporary id := by
  cases call with
  | path => exact may.elim
  | save source =>
      rcases may with rfl | ⟨text, rfl⟩ | rfl | rfl | rfl
      · exact .inl ⟨⟨source, rfl⟩, rfl⟩
      all_goals simp [FileDeed.paths]
  | load => rcases may with rfl | rfl <;> simp [FileDeed.paths]
  | holds =>
      cases may
      simp [FileDeed.paths]
  | delete => rcases may with rfl | rfl <;> simp [FileDeed.paths]

theorem May.spares {other : String} (accepted : SessionStore.checkId id = .ok ())
    (apart : id ≠ other) (may : call.May store id deed) :
    deed.Spares store.directory (other ++ SessionStore.suffix) := by
  rcases may.cases with ⟨-, rfl⟩ | known
  · exact .directories
  · refine .entries fun path member => ?_
    rcases known path member with rfl | rfl
    · refine ⟨_, SessionStore.isName_file accepted, ?_, rfl⟩
      exact fun same => apart ((String.append_left_inj _).mp same)
    · exact ⟨_, SessionStore.isName_temporary accepted, SessionStore.append_suffix_ne id other, rfl⟩

/-- A call leaves the session files of all other ids as they are. -/
theorem sameFiles (faithful : store.Faithful) {other : String}
    (accepted : SessionStore.checkId id = .ok ()) (apart : id ≠ other) (call : IdCall)
    (files : FileTree) (log : List LogRecord) :
    FileTree.SameFiles (other ++ SessionStore.suffix) files
      ((call.access id).perform ⟨store, files, log⟩).2.files := by
  have isPlan : (call.access id).ConfinedTo (call.May store id) store log :=
    confined faithful id call
  obtain ⟨plan, within, runs⟩ := isPlan
  rw [runs]
  have kept (deed : FileDeed) (middle : FileTree) (may : call.May store id deed)
      (same : FileTree.SameFiles (other ++ SessionStore.suffix) files middle) :=
    same.trans ((may.spares accepted apart).sameFiles middle)
  exact within.keeps kept (.refl _ files)

end Deeds

end IdCall

end Session

namespace SessionStore

theorem value_of_refused {id : String} {failure : Failure} (refused : checkId id = .error failure) :
    ∃ message, failure = .value message := by
  unfold checkId at refused
  split at refused
  · cases refused
    exact ⟨_, rfl⟩
  · split at refused
    · cases refused
      exact ⟨_, rfl⟩
    · cases refused

end SessionStore

namespace StoreEvent

open Session

/-- Whatever has been done with a store, and whatever others have done to its files: an id is
refused before anything is done, or a call has only to do with the directory and two entries of it.
No file that is found by a path of one id is found by the path of another id's session file, and
whatever is done with one id, the session files of the others are the same, wherever they are. -/
theorem calls_confined (path : String) (files : FileTree) (log : List LogRecord)
    (history : List StoreEvent) :
    let desk := history.foldl perform ⟨.ofPath path, files, log⟩
    let directory := FilePath.normalize path
    (∀ id failure, SessionStore.checkId id = .error failure →
      (∃ message, failure = .value message) ∧
        ∀ call : IdCall, (call.access id).perform desk = (.error failure, desk)) ∧
    (∀ id, SessionStore.checkId id = .ok () →
      FilePath.IsName (id ++ ".json") ∧ FilePath.IsName (id ++ ".tmp") ∧
      (pathOf id).perform desk = (.ok (FilePath.child directory (id ++ ".json")), desk) ∧
      ∀ call : IdCall,
        (call.access id).ConfinedTo (call.May desk.store id) desk.store desk.log ∧
        ∀ deed, call.May desk.store id deed →
          (∃ source, call = .save source) ∧ deed = .makesDirectories directory ∨
          ∀ path ∈ deed.paths, path = FilePath.child directory (id ++ ".json") ∨
            path = FilePath.child directory (id ++ ".tmp")) ∧
    ∀ id other, SessionStore.checkId id = .ok () → SessionStore.checkId other = .ok () →
      id ≠ other →
      FileTree.Apart (FilePath.child directory (id ++ ".json"))
          (FilePath.child directory (other ++ ".json")) ∧
        FileTree.Apart (FilePath.child directory (id ++ ".tmp"))
          (FilePath.child directory (other ++ ".json")) ∧
        ∀ call : IdCall, FileTree.SameFiles (other ++ ".json") desk.files
          ((call.access id).perform desk).2.files := by
  intro desk directory
  have agree := performAll_ofPath path files log history
  have faithful : desk.store.Faithful := agree.faithful
  have works : desk.store.directory = directory := agree.works
  have file (id : String) : desk.store.file id = FilePath.child directory (id ++ ".json") :=
    congrArg (FilePath.child · _) works
  have temporary (id : String) :
      desk.store.temporary id = FilePath.child directory (id ++ ".tmp") :=
    congrArg (FilePath.child · _) works
  refine ⟨fun id failure refused => ?_, fun id accepted => ?_, fun id other accepted known ne => ?_⟩
  · exact ⟨SessionStore.value_of_refused refused, IdCall.perform_of_refused refused⟩
  · refine ⟨SessionStore.isName_file accepted, SessionStore.isName_temporary accepted, ?_,
      fun call => ⟨IdCall.confined faithful id call, fun deed may => ?_⟩⟩
    · rw [perform_pathOf_of_faithful faithful, accepted, file]
      rfl
    · rw [← file, ← temporary, ← works]
      exact may.cases
  · have otherName := SessionStore.isName_file known
    refine ⟨?_, ?_, fun call => IdCall.sameFiles faithful accepted ne call desk.files desk.log⟩
    · refine FileTree.apart_child directory (SessionStore.isName_file accepted) otherName ?_
      exact fun same => ne ((String.append_left_inj _).mp same)
    · exact FileTree.apart_child directory (SessionStore.isName_temporary accepted) otherName
        (SessionStore.append_suffix_ne id other)

/-- An id may end as temporary files do: what is done with the id before that ending leaves its
session alone. -/
theorem calls_confined_neighbours :
    let history := [called (.save "a" (.map [])), called (.save "a.tmp" (.map []))]
    let desk := history.foldl perform ⟨.ofPath "./s", {}, []⟩
    ((IdCall.delete.access "a").perform desk).2.files.entries.map (·.1) =
        [["s"], ["s", "a.tmp.json"]] ∧
      ∃ text, desk.files.entry? ["s", "a.tmp.json"] = some (.file text) ∧
        ∀ call : IdCall, ((call.access "a").perform desk).2.files.entry? ["s", "a.tmp.json"] =
          some (.file text) := by
  intro history desk
  obtain ⟨-, -, apart⟩ := calls_confined "./s" {} [] history
  obtain ⟨-, -, same⟩ := apart "a" "a.tmp" rfl rfl (by decide)
  let text := "\x7b\n  \"cookies\": [],\n  \"origins\": []\n\x7d"
  have held : desk.files.entry? ["s", "a.tmp.json"] = some (.file text) := by decide +kernel
  exact ⟨by decide +kernel, text, held, fun call => (same call ["s"] text).mpr held⟩

end StoreEvent

end WebHarvest
