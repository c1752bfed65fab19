import WebHarvest.Proofs.Session.Desk

/-!
# A store is a map from ids to states

Whatever sequence of calls is made on a store in a directory of its own, all answers are those of a
map from ids to states: a save sets the state of its id, a deletion removes it, and no call touches
any other id. The map is read off the files of the directory: an id has a state exactly when the
file of its name is there.
-/

set_option autoImplicit false

namespace WebHarvest

/-- A call on a store. -/
inductive StoreCall where
  | save (id : String) (source : Value)
  | load (id : String)
  | holds (id : String)
  | delete (id : String)
  | list

inductive StoreAnswer where
  | saved (path : String)
  | loaded (state : SessionState)
  | told (answer : Bool)
  | listed (ids : List String)

namespace StoreCall

open Session

def access : StoreCall → Access StoreAnswer
  | .save id source => return .saved (← Session.save id source)
  | .load id => return .loaded (← Session.load id)
  | .holds id => return .told (← Session.holds id)
  | .delete id => return .told (← Session.delete id)
  | .list => return .listed (← Session.list)

/-- Makes calls one after another, also when some of them fail. -/
def performAll : List StoreCall → Desk → List (Except Failure StoreAnswer) × Desk
  | [], desk => ([], desk)
  | call :: rest, desk =>
      let (answer, next) := call.access.perform desk
      let (answers, last) := performAll rest next
      (answer :: answers, last)

/-- A call with an accepted id and, if it saves something, with the source of a state that can be
written and read back. -/
def Fits (directory : String) : StoreCall → Prop
  | .save id source => SessionStore.FitsId directory id ∧
      ∃ entries cookies origins, source = .map entries ∧
        SessionState.Gives entries "cookies" cookies ∧
        SessionState.Gives entries "origins" origins ∧
        SessionState.IsLossless { cookies, origins }
  | .load id => SessionStore.FitsId directory id
  | .holds id => SessionStore.FitsId directory id
  | .delete id => SessionStore.FitsId directory id
  | .list => True

/-- What a map from ids to states answers to a call, and the map after it. -/
inductive Answers (directory : String) (sessions : String → Option SessionState) :
    StoreCall → Except Failure StoreAnswer → (String → Option SessionState) → Prop where
  | saved {id : String} {entries : List (Value × Value)} {cookies origins : List Record}
      (nameable : FileTree.isNameable id = true)
      (cookiesGiven : SessionState.Gives entries "cookies" cookies)
      (originsGiven : SessionState.Gives entries "origins" origins) :
      Answers directory sessions (.save id (.map entries))
        (.ok (.saved (FilePath.child directory (id ++ SessionStore.suffix))))
        (Function.update sessions id (some { cookies, origins }))
  | refused {id : String} {source : Value} (unnameable : FileTree.isNameable id = false) :
      Answers directory sessions (.save id source) (.error (.value "embedded null byte")) sessions
  | loaded {id : String} {state : SessionState} (known : sessions id = some state) :
      Answers directory sessions (.load id) (.ok (.loaded state)) sessions
  | missing {id : String} (unknown : sessions id = none) :
      Answers directory sessions (.load id) (.error (.sessionNotFound id)) sessions
  | holds {id : String} :
      Answers directory sessions (.holds id) (.ok (.told (sessions id).isSome)) sessions
  | deleted {id : String} :
      Answers directory sessions (.delete id) (.ok (.told (sessions id).isSome))
        (Function.update sessions id none)
  | listed {ids : List String} (distinct : ids.Nodup)
      (domain : ∀ id, id ∈ ids ↔ (sessions id).isSome = true) :
      Answers directory sessions .list (.ok (.listed ids)) sessions

/-- What a map from ids to states answers to a sequence of calls, and the map after all of them. -/
inductive AnswersAll (directory : String) :
    (String → Option SessionState) → List StoreCall → List (Except Failure StoreAnswer) →
      (String → Option SessionState) → Prop where
  | nil {sessions : String → Option SessionState} : AnswersAll directory sessions [] [] sessions
  | cons {sessions next last : String → Option SessionState} {call : StoreCall}
      {answer : Except Failure StoreAnswer} {calls : List StoreCall}
      {answers : List (Except Failure StoreAnswer)}
      (head : Answers directory sessions call answer next)
      (tail : AnswersAll directory next calls answers last) :
      AnswersAll directory sessions (call :: calls) (answer :: answers) last

variable {directory : String} {desk : Desk} {sessions : String → Option SessionState}

theorem perform_answers {call : StoreCall} (steady : Steady directory desk sessions)
    (normal : FilePath.normalize directory = directory)
    (nameable : FileTree.isNameable directory = true) (fits : call.Fits directory) :
    ∃ answer next after, call.access.perform desk = (answer, next) ∧
      Answers directory sessions call answer after ∧ Steady directory next after := by
  have nonempty : directory ≠ "" := normal ▸ FilePath.normalize_ne_empty directory
  cases call with
  | save id source =>
      obtain ⟨fitsId, entries, cookies, origins, rfl, cookiesGiven, originsGiven, lossless⟩ := fits
      have given := SessionState.ofValue_of_given cookiesGiven originsGiven
      cases idNameable : FileTree.isNameable id with
      | true =>
          obtain ⟨next, performed, after⟩ :=
            steady.save nonempty nameable normal fitsId idNameable given lossless
          refine ⟨_, next, _, ?_, .saved idNameable cookiesGiven originsGiven, after⟩
          rw [access, perform_bind, performed]
          rfl
      | false =>
          obtain ⟨next, performed, after⟩ :=
            steady.save_of_unnameable nameable normal fitsId idNameable given lossless
          refine ⟨_, next, _, ?_, .refused idNameable, after⟩
          rw [access, perform_bind, performed]
  | load id =>
      obtain ⟨next, performed, after⟩ := steady.load nonempty nameable fits
      cases known : sessions id with
      | some state =>
          rw [known] at performed
          refine ⟨_, next, _, ?_, .loaded known, after⟩
          rw [access, perform_bind, performed]
          rfl
      | none =>
          rw [known] at performed
          refine ⟨_, next, _, ?_, .missing known, after⟩
          rw [access, perform_bind, performed]
  | holds id =>
      obtain ⟨next, performed, after⟩ := steady.holds nonempty nameable fits
      refine ⟨_, next, _, ?_, .holds, after⟩
      rw [access, perform_bind, performed]
      rfl
  | delete id =>
      obtain ⟨next, performed, after⟩ := steady.delete nonempty nameable fits
      refine ⟨_, next, _, ?_, .deleted, after⟩
      rw [access, perform_bind, performed]
      rfl
  | list =>
      obtain ⟨ids, performed, distinct, domain⟩ := steady.list nameable
      refine ⟨_, desk, _, ?_, .listed distinct domain, steady⟩
      rw [access, perform_bind, performed]
      rfl

theorem performAll_steady {calls : List StoreCall} (steady : Steady directory desk sessions)
    (normal : FilePath.normalize directory = directory)
    (nameable : FileTree.isNameable directory = true)
    (fits : ∀ call ∈ calls, call.Fits directory) :
    ∃ after, AnswersAll directory sessions calls (performAll calls desk).1 after ∧
      Steady directory (performAll calls desk).2 after := by
  induction calls generalizing desk sessions with
  | nil => exact ⟨sessions, .nil, steady⟩
  | cons call rest ih =>
      obtain ⟨answer, next, middle, performed, answers, middleSteady⟩ :=
        perform_answers steady normal nameable (fits call List.mem_cons_self)
      obtain ⟨after, answersRest, afterSteady⟩ :=
        ih middleSteady fun call member => fits call (List.mem_cons_of_mem _ member)
      rw [performAll, performed]
      exact ⟨after, .cons answers answersRest, afterSteady⟩

/-- All calls on a store in a directory of its own answer as a map from ids to states does that is
empty at first, and no other files than those of the sessions in the map are left. -/
theorem performAll_answers {files : FileTree} {path : String} {calls : List StoreCall}
    (log : List LogRecord) (covers : files.Covers (FilePath.normalize path))
    (vacant : files.IsVacant (FilePath.normalize path))
    (fits : ∀ call ∈ calls, call.Fits (FilePath.normalize path)) :
    let outcome := performAll calls ⟨.ofPath path, files, log⟩
    ∃ sessions, AnswersAll (FilePath.normalize path) (fun _ => none) calls outcome.1 sessions ∧
      ∀ children, outcome.2.files.children (FilePath.normalize path) = .ok children →
        ∀ child ∈ children, ∃ id, child.1 = id ++ SessionStore.suffix ∧
          (sessions id).isSome = true := by
  intro outcome
  have normal := FilePath.normalize_normalize path
  obtain ⟨made, done, empty⟩ := vacant
  have nameable := FileTree.nameable_of_made done
  have steady : Steady (FilePath.normalize path) ⟨.ofPath path, files, log⟩ fun _ => none := by
    refine ⟨SessionStore.directory_ofPath path, SessionStore.indexed_ofPath path, covers, ?_⟩
    rcases FileTree.present_or_absent_of_made normal done with ⟨place, located, here⟩ | absent
    · rw [FileTree.makeDirectories_of_present normal nameable located here] at done
      cases done
      obtain ⟨place, holds⟩ := FileTree.holdsFiles_of_no_children empty
      refine .inr ⟨place, _, holds, ?_, ?_, ?_⟩
      · intro id state saved
        cases saved
      · intro name text held
        cases held
      · intro id saved
        cases saved
    · exact .inl ⟨absent, ⟨made, done, empty⟩, fun _ => rfl⟩
  obtain ⟨after, answersAll, afterSteady⟩ := performAll_steady steady normal nameable fits
  exact ⟨after, answersAll, fun children listed => afterSteady.children nameable listed⟩

/-- Sessions with names that look alike: deleting one keeps the other. -/
theorem performAll_answers_alike :
    let cookies : List Record := [[("name", .text "sid")]]
    let source : Value := .map [(.text "cookies", .list (cookies.map .record))]
    let calls := [save "a" source, save "a.json" source, delete "a", holds "a", load "a.json", list]
    let files : FileTree := {}
    let directory := FilePath.normalize "./sessions"
    files.Covers directory ∧ files.IsVacant directory ∧ (∀ call ∈ calls, call.Fits directory) ∧
      let outcome := performAll calls ⟨.ofPath "./sessions", files, []⟩
      ∃ sessions, AnswersAll directory (fun _ => none) calls outcome.1 sessions ∧
        ∀ children, outcome.2.files.children directory = .ok children →
          ∀ child ∈ children, ∃ id, child.1 = id ++ SessionStore.suffix ∧
            (sessions id).isSome = true := by
  intro cookies source calls files directory
  have spelled : directory = "sessions" := by decide +kernel
  have covers : files.Covers directory := by
    rw [spelled]
    exact .inr (by decide +kernel)
  have located : files.locate directory = .ok ["sessions"] := by
    have steps : FilePath.steps "sessions" = ["sessions"] := by decide +kernel
    rw [spelled, FileTree.locate, if_neg (by decide +kernel),
      FileTree.stepsTo_of_relative (by decide +kernel) (by decide +kernel), steps]
    rfl
  have nameable : FileTree.isNameable directory = true := by
    rw [spelled]
    decide +kernel
  have vacant : files.IsVacant directory :=
    FileTree.isVacant_of_absent (FilePath.normalize_normalize _) nameable located rfl rfl
  have fits : ∀ call ∈ calls, call.Fits directory := by
    have first : SessionStore.FitsId directory "a" := by
      rw [spelled]
      exact ⟨rfl, by decide +kernel, by decide +kernel⟩
    have second : SessionStore.FitsId directory "a.json" := by
      rw [spelled]
      exact ⟨rfl, by decide +kernel, by decide +kernel⟩
    have written : SessionState.text { cookies } = .ok
        ("\x7b\n  \"cookies\": [\n    \x7b\n      \"name\": \"sid\"\n    \x7d\n  ]," ++
          "\n  \"origins\": []\n\x7d") := by
      cbv
    have lossless : SessionState.IsLossless { cookies } := ⟨_, written, by cbv⟩
    have given : ∃ entries given origins, source = .map entries ∧
        SessionState.Gives entries "cookies" given ∧
        SessionState.Gives entries "origins" origins ∧
        SessionState.IsLossless { cookies := given, origins } :=
      ⟨_, cookies, [], rfl, .inl rfl, .inr ⟨rfl, rfl⟩, lossless⟩
    simp only [calls, List.forall_mem_cons, Fits]
    exact ⟨⟨first, given⟩, ⟨second, given⟩, first, first, second, trivial,
      fun _ member => by cases member⟩
  exact ⟨covers, vacant, fits, performAll_answers [] covers vacant fits⟩

end StoreCall

end WebHarvest
