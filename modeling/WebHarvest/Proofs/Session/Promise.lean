import WebHarvest.Proofs.Session.Course

/-!
# What a login promises

Whatever the page replies, the calls of a login are a first part of one script, the last of them
being the first that fails. What it leaves behind is all or nothing, as far as the calls up to the
sign of success are concerned.
-/

set_option autoImplicit false

namespace WebHarvest.Session

open Browser (Call Halt PageId)

variable {desk after : Desk} {calls : List Browser.Exchange} {outcome : LoginOutcome}

section Deposits

variable {α β : Type} {call : Call} {work : Value → Access α} {result : Except Failure α}

theorem Deposits.of_ok {given : α} (deposits : Deposits call work desk calls (.ok given) after) :
    ∃ value, calls = [(call, .ok value)] ∧ (work value).perform desk = (.ok given, after) := by
  rcases deposits with ⟨failure, -, same, -⟩ | deposited
  · cases same
  · exact deposited

/-- A call that is made when there is anything that it is wanted for. -/
def wantedCalls (wanted : Option β) (call : Call) : List Call :=
  match wanted with
  | some _ => [call]
  | none => []

variable {wanted : Option β} {works : β → Value → Access α} {otherwise : α}

theorem DepositsIf.made
    (deposits : DepositsIf wanted call works otherwise desk calls result after) :
    calls.map Prod.fst = wantedCalls wanted call := by
  cases wanted with
  | none =>
      obtain ⟨rfl, -⟩ := deposits
      rfl
  | some item =>
      rcases deposits with ⟨failure, rfl, -⟩ | ⟨value, rfl, -⟩
      · rfl
      · rfl

theorem DepositsIf.follows
    (deposits : DepositsIf wanted call works otherwise desk calls result after) :
    ∃ halt, Browser.Follows (wantedCalls wanted call) calls halt := by
  cases wanted with
  | none =>
      obtain ⟨rfl, -⟩ := deposits
      exact ⟨_, .finished⟩
  | some item =>
      rcases deposits with ⟨failure, rfl, -⟩ | ⟨value, rfl, -⟩
      · exact ⟨_, .single⟩
      · exact ⟨_, .single⟩

theorem DepositsIf.finished {given : α}
    (deposits : DepositsIf wanted call works otherwise desk calls (.ok given) after) :
    Browser.Follows (wantedCalls wanted call) calls .finished := by
  cases wanted with
  | none =>
      obtain ⟨rfl, -⟩ := deposits
      exact .finished
  | some item =>
      obtain ⟨value, rfl, -⟩ := Deposits.of_ok deposits
      exact .single

/-- Without a call nothing is done. -/
theorem DepositsIf.of_nil
    (deposits : DepositsIf wanted call works otherwise desk [] result after) :
    result = .ok otherwise ∧ after = desk := by
  cases wanted with
  | none => exact deposits.2
  | some item => cases deposits.made

end Deposits

/-- The calls of a login once it has seen the sign of success. -/
def keepCalls (outcome : LoginOutcome) : List Call :=
  wantedCalls outcome.session? .storageState ++ wantedCalls outcome.cookiesPath (.cookies none)

/-- A session that can be saved is lost only when the browser does not give it. -/
theorem KeepsSession.exists_failed {failure : Failure}
    (keeps : KeepsSession outcome desk calls (.error failure) after)
    (accepted : ∀ id, outcome.session? = some id → SessionStore.checkId id = .ok ())
    (writable : ∀ id, outcome.session? = some id → desk.Takes id)
    (savable : ∀ value, (Call.storageState, .ok value) ∈ calls → SessionState.IsSavable value) :
    ∃ call failure, (call, .error failure) ∈ calls := by
  unfold KeepsSession DepositsIf at keeps
  cases given : outcome.session? with
  | none =>
      rw [given] at keeps
      cases keeps.2.1
  | some id =>
      rw [given] at keeps
      rcases keeps with ⟨failure, rfl, -⟩ | ⟨value, rfl, saves⟩
      · exact ⟨_, failure, List.mem_cons_self⟩
      · obtain ⟨path, later, saved⟩ := exists_save (accepted id given) (writable id given)
          (savable value List.mem_cons_self)
        rw [perform_map, saved] at saves
        cases saves

section Success

variable {path saved : Option String}

theorem map_of_ok {α β : Type} {f : α → β} {access : Access α} {result : β}
    (done : (f <$> access).perform desk = (.ok result, after)) :
    ∃ given, access.perform desk = (.ok given, after) ∧ result = f given := by
  rw [map_eq_pure_bind] at done
  obtain ⟨given, middle, worked, same⟩ := ok_of_bind done
  cases same
  exact ⟨given, worked, rfl⟩

theorem storeCookies_of_ok {file : String} {cookies : Value}
    (done : (storeCookies file cookies).perform desk = (.ok (), after)) :
    ∃ text files, cookiesText cookies = .ok text ∧ desk.files.write file text = .ok files ∧
      after = { desk with files } := by
  obtain ⟨text, middle, settled, writes⟩ := ok_of_bind done
  obtain ⟨said, rfl⟩ := Prod.mk.inj settled
  obtain ⟨files, wrote, rfl⟩ := change_of_ok writes
  exact ⟨text, files, said, wrote, rfl⟩

theorem exists_storeCookies {file text : String} {cookies : Value}
    (said : cookiesText cookies = .ok text) (writable : desk.files.IsWritable file) :
    ∃ after, (storeCookies file cookies).perform desk = (.ok (), after) := by
  obtain ⟨files, wrote⟩ := writable.write text
  refine ⟨{ desk with files }, ?_⟩
  rw [storeCookies, perform_bind, perform_settle, said]
  exact perform_change wrote

theorem KeepsSession.of_ok {id : String}
    (keeps : KeepsSession outcome desk calls (.ok path) after)
    (wanted : outcome.session? = some id) :
    ∃ value, (Call.storageState, .ok value) ∈ calls ∧ path = some (desk.store.file id) ∧
      after.store.pathOf id = desk.store.file id ∧ after.Keeps id value ∧
      ∀ other, FileTree.IsWritable (desk.files.makeDirectories desk.store.directory).1 other →
        after.files.IsWritable other := by
  unfold KeepsSession DepositsIf at keeps
  rw [wanted] at keeps
  obtain ⟨value, rfl, saves⟩ := Deposits.of_ok keeps
  obtain ⟨given, saved, rfl⟩ := map_of_ok saves
  obtain ⟨rfl, left⟩ := save_of_ok saved
  exact ⟨value, List.mem_cons_self, rfl, left⟩

/-- When the cookies have been dealt with, their file has been written, or there is none. -/
theorem KeepsCookies.of_ok (keeps : KeepsCookies outcome path desk calls (.ok saved) after) :
    saved = path ∧
      (outcome.cookiesPath = none ∧ after = desk ∨
        ∃ file cookies text files, outcome.cookiesPath = some file ∧
          (Call.cookies none, .ok cookies) ∈ calls ∧ cookiesText cookies = .ok text ∧
          desk.files.write file text = .ok files ∧ after = { desk with files }) := by
  unfold KeepsCookies DepositsIf at keeps
  cases wanted : outcome.cookiesPath with
  | none =>
      rw [wanted] at keeps
      obtain ⟨-, same, rfl⟩ := keeps
      exact ⟨Except.ok.inj same, .inl ⟨rfl, rfl⟩⟩
  | some file =>
      rw [wanted] at keeps
      obtain ⟨cookies, rfl, stores⟩ := Deposits.of_ok keeps
      obtain ⟨⟨⟩, middle, stores, ends⟩ := ok_of_bind stores
      obtain ⟨text, files, said, wrote, rfl⟩ := storeCookies_of_ok stores
      cases ends
      exact ⟨rfl, .inr ⟨file, cookies, text, files, rfl, List.mem_cons_self, said, wrote, rfl⟩⟩

end Success

section Click

variable (page : PageId) (url : String) (credentials : Credentials) (form : LoginForm)
variable (outcome : LoginOutcome)

/-- A login clicks once. -/
theorem exists_around_click : ∃ front back,
    entryCalls page url credentials form outcome ++ keepCalls outcome =
      (fillCalls page url credentials form ++ front) ++
        .click page form.selectors.submit :: back ∧
      Call.click page form.selectors.submit ∉ fillCalls page url credentials form ++ front ∧
      Call.click page form.selectors.submit ∉ back := by
  have noSign : Call.click page form.selectors.submit ∉ signCalls page form outcome := by
    unfold signCalls
    split <;> simp
  have noKeep : Call.click page form.selectors.submit ∉ keepCalls outcome := by
    unfold keepCalls wantedCalls
    split <;> split <;> simp
  have noFill : Call.click page form.selectors.submit ∉ fillCalls page url credentials form := by
    simp [fillCalls]
  unfold entryCalls submitCalls
  split
  · refine ⟨[.expectNavigation page form.timeoutMs],
      .navigationDone page :: (signCalls page form outcome ++ keepCalls outcome), ?_, ?_, ?_⟩
    · simp
    · simpa using noFill
    · simp [noSign, noKeep]
  · refine ⟨[], signCalls page form outcome ++ keepCalls outcome, ?_, ?_, ?_⟩
    · simp
    · simpa using noFill
    · simp [noSign, noKeep]

end Click

namespace LoginCourse

variable {page : PageId} {url : String} {credentials : Credentials} {form : LoginForm}
  {result : Except Failure (Option String)}

theorem follows (course : LoginCourse page url credentials form outcome desk calls result after) :
    ∃ halt, Browser.Follows (entryCalls page url credentials form outcome ++ keepCalls outcome)
      calls halt ∧ (halt = .failed → ∃ failure, result = .error failure) := by
  cases course with
  | lost entry => exact ⟨_, entry.cut _, fun _ => ⟨_, rfl⟩⟩
  | unsaved entry session =>
      obtain ⟨halt, asks⟩ := session.follows
      exact ⟨_, entry.append (asks.cut _), fun _ => ⟨_, rfl⟩⟩
  | @kept _ _ _ _ _ _ _ result entry session cookies =>
      cases result with
      | ok saved =>
          exact ⟨_, entry.append (session.finished.append cookies.finished), nofun⟩
      | error failure =>
          obtain ⟨halt, asks⟩ := cookies.follows
          exact ⟨_, entry.append (session.finished.append asks), fun _ => ⟨_, rfl⟩⟩

/-- Nothing is touched before the sign of success has been seen. -/
theorem untouched
    (course : LoginCourse page url credentials form outcome desk calls result after)
    (early : calls.map Prod.fst <+: entryCalls page url credentials form outcome) :
    after.files = desk.files ∧ after.store = desk.store := by
  have beyond {entered more : List Browser.Exchange}
      (entry : Browser.Follows (entryCalls page url credentials form outcome) entered .finished)
      (early : (entered ++ more).map Prod.fst <+: entryCalls page url credentials form outcome) :
      more = [] := by
    rw [List.map_append, entry.complete] at early
    simpa using early.length_le
  cases course with
  | lost => exact ⟨rfl, rfl⟩
  | unsaved entry session =>
      obtain rfl := beyond entry early
      cases session.of_nil.1
  | kept entry session cookies =>
      obtain ⟨rfl, rfl⟩ := List.append_eq_nil_iff.mp (beyond entry early)
      obtain ⟨-, rfl⟩ := cookies.of_nil
      obtain ⟨-, rfl⟩ := session.of_nil
      exact ⟨rfl, rfl⟩

section Success

variable (course : LoginCourse page url credentials form outcome desk calls result after)
variable (accepted : ∀ id, outcome.session? = some id → SessionStore.checkId id = .ok ())
variable (writable : ∀ id, outcome.session? = some id → desk.Takes id)
variable (succeeds : ∀ call ∈ calls, call.2.isOk = true)
variable (savable : ∀ value, (Call.storageState, .ok value) ∈ calls → SessionState.IsSavable value)

include course accepted writable succeeds savable

/-- When no call fails and the session can be saved, a login comes to the cookies. -/
theorem comes_to_cookies : ∃ entered first second log path middle,
    Browser.Follows (entryCalls page url credentials form outcome) entered .finished ∧
      KeepsSession outcome { desk with log } first (.ok path) middle ∧
      KeepsCookies outcome path middle second result after ∧
      calls = entered ++ (first ++ second) := by
  cases course with
  | lost entry =>
      obtain ⟨call, failure, member⟩ := entry.exists_failed
      cases succeeds _ member
  | unsaved entry session =>
      obtain ⟨call, failure, member⟩ := session.exists_failed accepted writable fun value member =>
        savable value (List.mem_append_right _ member)
      cases succeeds _ (List.mem_append_right _ member)
  | kept entry session cookies => exact ⟨_, _, _, _, _, _, entry, session, cookies, rfl⟩

theorem complete :
    calls.map Prod.fst = entryCalls page url credentials form outcome ++ keepCalls outcome := by
  obtain ⟨entered, first, second, log, path, middle, entry, session, cookies, rfl⟩ :=
    course.comes_to_cookies accepted writable succeeds savable
  rw [List.map_append, List.map_append, entry.complete, session.made, cookies.made]
  rfl

/-- It returns when the cookies can be written, too. -/
theorem returns {id : String} (wanted : outcome.session? = some id)
    (textual : ∀ cookies, (Call.cookies none, .ok cookies) ∈ calls →
      ∃ text, cookiesText cookies = .ok text)
    (takesCookies : ∀ file, outcome.cookiesPath = some file →
      FileTree.IsWritable (desk.files.makeDirectories desk.store.directory).1 file) :
    ∃ saved, result = .ok saved := by
  obtain ⟨entered, first, second, log, path, middle, -, session, writing, rfl⟩ :=
    course.comes_to_cookies accepted writable succeeds savable
  obtain ⟨-, -, -, -, -, stays⟩ := session.of_ok wanted
  unfold KeepsCookies DepositsIf at writing
  cases given : outcome.cookiesPath with
  | none =>
      rw [given] at writing
      exact ⟨path, writing.2.1⟩
  | some file =>
      rw [given] at writing
      rcases writing with ⟨failure, rfl, -⟩ | ⟨cookies, rfl, stores⟩
      · cases succeeds _ (List.mem_append_right _ (List.mem_append_right _ List.mem_cons_self))
      · obtain ⟨text, said⟩ := textual cookies
          (List.mem_append_right _ (List.mem_append_right _ List.mem_cons_self))
        obtain ⟨between, stored⟩ := exists_storeCookies said (stays file (takesCookies file given))
        rw [perform_bind, stored] at stores
        exact ⟨path, (Prod.mk.inj stores).1.symm⟩

end Success

/-- When the browser gives what is no state, the login fails before it asks for the cookies. -/
theorem refused {id : String}
    (course : LoginCourse page url credentials form outcome desk calls result after)
    (wanted : outcome.session? = some id) (succeeds : ∀ call ∈ calls, call.2.isOk = true)
    (unfit : ∀ value, (Call.storageState, .ok value) ∈ calls → ∀ state,
      SessionState.ofValue value ≠ .ok state) :
    (∃ failure, result = .error failure) ∧
      calls.map Prod.fst = entryCalls page url credentials form outcome ++ [.storageState] := by
  cases course with
  | lost entry =>
      obtain ⟨call, failure, member⟩ := entry.exists_failed
      cases succeeds _ member
  | unsaved entry session =>
      have made := session.made
      rw [wanted] at made
      rw [List.map_append, entry.complete, made]
      exact ⟨⟨_, rfl⟩, rfl⟩
  | kept entry session cookies =>
      obtain ⟨value, member, -, -, ⟨state, -, -, given, -⟩, -⟩ := session.of_ok wanted
      exact absurd given
        (unfit value (List.mem_append_right _ (List.mem_append_left _ member)) state)

/-- The form is not sent before all of it has been filled in. -/
theorem fills (course : LoginCourse page url credentials form outcome desk calls result after)
    {before rest : List Browser.Exchange} {reply : Except Failure Value}
    (split : calls = before ++ (.click page form.selectors.submit, reply) :: rest) :
    fillCalls page url credentials form <+: before.map Prod.fst ∧
      ∀ earlier ∈ before, ∃ value, earlier.2 = .ok value := by
  obtain ⟨halt, follows, -⟩ := course.follows
  refine ⟨?_, follows.succeeds split⟩
  obtain ⟨front, back, whole, frontOther, backOther⟩ :=
    exists_around_click page url credentials form outcome
  rw [whole] at follows
  rw [follows.before_of_once split frontOther backOther]
  exact List.prefix_append _ _

/-- A login that returns has saved the session, which stays in its file unless the cookies are
written there. -/
theorem session_kept {saved : Option String} {id : String}
    (course : LoginCourse page url credentials form outcome desk calls (.ok saved) after)
    (wanted : outcome.session? = some id) :
    ∃ value, (Call.storageState, .ok value) ∈ calls ∧ saved = some (desk.store.file id) ∧
      after.store.pathOf id = desk.store.file id ∧
      ((∀ file, outcome.cookiesPath = some file → ¬ after.files.Meet file (desk.store.file id)) →
        after.Keeps id value) := by
  cases course with
  | kept entry session cookies =>
      obtain ⟨value, member, rfl, remembered, kept, -⟩ := session.of_ok wanted
      obtain ⟨rfl, ⟨-, rfl⟩ | ⟨file, _, text, files, given, -, -, wrote, rfl⟩⟩ := cookies.of_ok
      · refine ⟨value, ?_, rfl, remembered, fun _ => kept⟩
        exact List.mem_append_right _ (List.mem_append_left _ member)
      · refine ⟨value, ?_, rfl, remembered, fun apart => kept.write wrote ?_⟩
        · exact List.mem_append_right _ (List.mem_append_left _ member)
        · rw [remembered]
          exact apart file given

theorem cookies_kept {saved : Option String} {file : String}
    (course : LoginCourse page url credentials form outcome desk calls (.ok saved) after)
    (wanted : outcome.cookiesPath = some file) :
    ∃ cookies text, (Call.cookies none, .ok cookies) ∈ calls ∧ cookiesText cookies = .ok text ∧
      after.files.read file = .ok text := by
  cases course with
  | kept entry session writing =>
      obtain ⟨-, ⟨none, -⟩ | ⟨other, cookies, text, files, given, member, said, wrote, rfl⟩⟩ :=
        writing.of_ok
      · rw [wanted] at none
        cases none
      · obtain rfl : other = file := Option.some.inj (given.symm.trans wanted)
        refine ⟨cookies, text, ?_, said, FileTree.read_of_write wrote⟩
        exact List.mem_append_right _ (List.mem_append_right _ member)

end LoginCourse

section Occasions

/-- A desk with a new store, and no files yet. -/
def newDesk : Desk := ⟨.ofPath "sessions", {}, []⟩

/-- A browser whose calls all succeed; it gives a storage state, and no cookies. -/
def giving (state : Value) : Call → Except Failure Value
  | .storageState => .ok state
  | .cookies _ => .ok (.list [])
  | _ => .ok .null

theorem giving_ok (state : Value) (call : Call) : (giving state call).isOk = true := by
  unfold giving
  split
  · rfl
  · rfl
  · rfl

theorem newDesk_directory : newDesk.store.directory = "sessions" := by decide +kernel

theorem newDesk_file : newDesk.store.file "m" = "sessions/m.json" := by decide +kernel

theorem newDesk_made : newDesk.files.makeDirectories newDesk.store.directory =
    ({ entries := [(["sessions"], .directory)] }, .ok ()) := by
  have located : FileTree.locate {} "sessions" = .ok ["sessions"] := by decide +kernel
  have makes : FileTree.makeDirectory {} "sessions" =
      .ok { entries := [(["sessions"], .directory)] } := by
    rw [FileTree.makeDirectory_of_located located]
    rfl
  rw [newDesk_directory]
  show FileTree.makeDirectories {} "sessions" = _
  rw [FileTree.makeDirectories_eq_ensureDirectory (by decide +kernel) (by decide +kernel)
    (by rw [makes]; nofun), FileTree.ensureDirectory, makes]

theorem made_writable {name : String}
    (located : FileTree.locate { entries := [(["sessions"], .directory)] }
      (FilePath.child "sessions" name) = .ok ["sessions", name])
    (absent : FileTree.entry? { entries := [(["sessions"], .directory)] } ["sessions", name] = none)
    (nameable : FileTree.isNameable (FilePath.child "sessions" name) = true) :
    FileTree.IsWritable { entries := [(["sessions"], .directory)] }
      (FilePath.child "sessions" name) :=
  ⟨_, "", FileTree.target_eq_ok_iff.mpr ⟨nameable, located, .inl ⟨absent, rfl⟩⟩⟩

theorem newDesk_takes : newDesk.Takes "m" := by
  refine ⟨_, newDesk_made, ?_, ?_⟩
  · rw [SessionStore.temporary, newDesk_directory]
    exact made_writable (by decide +kernel) (by decide +kernel) (by decide +kernel)
  · rw [SessionStore.file, newDesk_directory]
    exact made_writable (by decide +kernel) (by decide +kernel) (by decide +kernel)

/-- The session is saved, and perhaps the cookies. -/
def saving (cookiesPath : Option String) : LoginOutcome := { sessionId := some "m", cookiesPath }

variable {state : Value} {outcome : LoginOutcome} {cookiesPath : Option String}

theorem saving_session (cookiesPath : Option String) : (saving cookiesPath).session? = some "m" := by
  have named : Option.filter (fun id : String => !id.isEmpty) (some "m") = some "m" := by
    decide +kernel
  exact named

theorem saving_accepted (id : String) (wanted : (saving cookiesPath).session? = some id) :
    SessionStore.checkId id = .ok () := by
  obtain rfl := Option.some.inj (wanted.symm.trans (saving_session cookiesPath))
  rfl

theorem saving_takes (id : String) (wanted : (saving cookiesPath).session? = some id) :
    newDesk.Takes id := by
  obtain rfl := Option.some.inj (wanted.symm.trans (saving_session cookiesPath))
  exact newDesk_takes

/-- What there is to know of such a login. -/
structure Occasion (state : Value) (outcome : LoginOutcome) (trace : List Exchange)
    (result : Except Failure (Option String)) (after : Desk) : Prop where
  run : (login 0 "http://a/" ⟨"u", "p"⟩ {} outcome).Runs trace result
  served : newDesk.ServesAll trace after
  replied : ∀ call ∈ trace.filterMap Exchange.browser?, call.2 = giving state call.1

namespace Occasion

variable {trace : List Exchange} {result : Except Failure (Option String)} {after : Desk}

theorem succeeds (occasion : Occasion state outcome trace result after) :
    ∀ call ∈ trace.filterMap Exchange.browser?, call.2.isOk = true := by
  intro call member
  rw [occasion.replied call member]
  exact giving_ok state call.1

theorem savable (occasion : Occasion state outcome trace result after)
    (savable : SessionState.IsSavable state) (value : Value)
    (member : (Call.storageState, .ok value) ∈ trace.filterMap Exchange.browser?) :
    SessionState.IsSavable value := by
  obtain rfl := Except.ok.inj (occasion.replied _ member)
  exact savable

theorem course (occasion : Occasion state outcome trace result after)
    (accepted : ∀ id, outcome.session? = some id → SessionStore.checkId id = .ok ()) :
    LoginCourse 0 "http://a/" ⟨"u", "p"⟩ {} outcome newDesk (trace.filterMap Exchange.browser?)
      result after :=
  login_course accepted occasion.run occasion.served

end Occasion

theorem exists_occasion (state : Value) (outcome : LoginOutcome) :
    ∃ trace result after, Occasion state outcome trace result after := by
  obtain ⟨trace, result, after, run, served, replied⟩ :=
    exists_served (login_asks 0 "http://a/" ⟨"u", "p"⟩ {} outcome) (giving state) newDesk
  exact ⟨trace, result, after, run, served, replied⟩

theorem isSavable_empty : SessionState.IsSavable (.map []) :=
  ⟨{}, _, SessionState.ofValue_of_given (.inr ⟨rfl, rfl⟩) (.inr ⟨rfl, rfl⟩), by cbv⟩

/-- The login returns when the session can be saved and the cookies can be written. -/
theorem Occasion.returns {trace : List Exchange} {result : Except Failure (Option String)}
    {after : Desk} (occasion : Occasion state (saving cookiesPath) trace result after)
    (savable : SessionState.IsSavable state)
    (takesCookies : ∀ file, cookiesPath = some file →
      FileTree.IsWritable { entries := [(["sessions"], .directory)] } file) :
    result = .ok (some "sessions/m.json") := by
  have course := occasion.course saving_accepted
  have textual : ∀ cookies, (Call.cookies none, .ok cookies) ∈
      trace.filterMap Exchange.browser? → ∃ text, cookiesText cookies = .ok text := by
    intro cookies member
    obtain rfl := Except.ok.inj (occasion.replied _ member)
    exact ⟨_, rfl⟩
  have takes : ∀ file, (saving cookiesPath).cookiesPath = some file →
      FileTree.IsWritable (newDesk.files.makeDirectories newDesk.store.directory).1 file := by
    rw [newDesk_made]
    exact takesCookies
  obtain ⟨saved, rfl⟩ := course.returns saving_accepted saving_takes occasion.succeeds
    (occasion.savable savable) (saving_session _) textual takes
  obtain ⟨-, -, rfl, -⟩ := course.session_kept (saving_session _)
  rw [newDesk_file]

/-- A selector that is empty is not waited for. -/
theorem emptySign_unseen : ∃ trace result after,
    Occasion (.map []) { successSelector := some "" } trace result after ∧
      Call.waitForSelector 0 "" none 30000 ∉
        (trace.filterMap Exchange.browser?).map Prod.fst := by
  obtain ⟨trace, result, after, occasion⟩ :=
    exists_occasion (.map []) { successSelector := some "" }
  refine ⟨trace, result, after, occasion, ?_⟩
  have unsigned : LoginOutcome.sign? { successSelector := some "" } = none := by decide +kernel
  rw [(occasion.course nofun).complete nofun nofun occasion.succeeds
    (occasion.savable isSavable_empty)]
  have named : "" ≠ ({} : LoginSelectors).username := by decide +kernel
  have worded : "" ≠ ({} : LoginSelectors).password := by decide +kernel
  have sent : "" ≠ ({} : LoginSelectors).submit := by decide +kernel
  simp [entryCalls, fillCalls, submitCalls, signCalls, unsigned, keepCalls, wantedCalls,
    LoginOutcome.session?, named, worded, sent]

/-- What is no state of a session is not saved, and nobody asks for the cookies. -/
theorem misshapenState_refused : ∃ trace failure after,
    Occasion (.map [(.text "cookies", .int 5)]) (saving (some "c.json")) trace (.error failure)
        after ∧
      Call.cookies none ∉ (trace.filterMap Exchange.browser?).map Prod.fst := by
  obtain ⟨trace, result, after, occasion⟩ :=
    exists_occasion (.map [(.text "cookies", .int 5)]) (saving (some "c.json"))
  have unfit : ∀ value, (Call.storageState, .ok value) ∈ trace.filterMap Exchange.browser? →
      ∀ state, SessionState.ofValue value ≠ .ok state := by
    intro value member state
    obtain rfl := Except.ok.inj (occasion.replied _ member)
    nofun
  obtain ⟨⟨failure, rfl⟩, made⟩ :=
    (occasion.course saving_accepted).refused (saving_session _) occasion.succeeds unfit
  refine ⟨trace, failure, after, occasion, ?_⟩
  have unsigned : (saving (some "c.json")).sign? = none := rfl
  rw [made]
  simp [entryCalls, fillCalls, submitCalls, signCalls, unsigned]

/-- Cookies may be written over the session. -/
theorem session_overwritten : ∃ trace after,
    Occasion (.map []) (saving (some "sessions/m.json")) trace (.ok (some "sessions/m.json")) after ∧
      ∀ state, ((load "m").perform after).1 ≠ .ok state := by
  obtain ⟨trace, result, after, occasion⟩ :=
    exists_occasion (.map []) (saving (some "sessions/m.json"))
  obtain ⟨made, done, -, fileWritable⟩ := newDesk_takes
  obtain rfl := (Prod.mk.inj (newDesk_made.symm.trans done)).1
  rw [newDesk_file] at fileWritable
  obtain rfl := occasion.returns isSavable_empty fun file given =>
    Option.some.inj given ▸ fileWritable
  refine ⟨trace, after, occasion, fun state => ?_⟩
  have course := occasion.course saving_accepted
  obtain ⟨-, -, -, remembered, -⟩ := course.session_kept (saving_session _)
  obtain ⟨cookies, text, member, said, reads⟩ := course.cookies_kept rfl
  obtain rfl := Except.ok.inj (occasion.replied _ member)
  obtain rfl : "[]" = text := Except.ok.inj said
  rw [← newDesk_file, ← remembered] at reads
  rw [load_of_read rfl reads]
  intro loaded
  have refused : (SessionState.ofText "[]").isOk = false := by decide +kernel
  rw [show SessionState.ofText "[]" = .ok state from loaded] at refused
  cases refused

/-- What the reader of session files does not take may be saved, and is never loaded. -/
theorem immodestState_unloadable {record : Record} {text : String}
    (written : SessionState.text { cookies := [record] } = .ok text)
    (immodest : ∃ entry ∈ record, ¬ Json.IsModest SessionState.depthAllowed entry.2) :
    ∃ trace after,
      Occasion (.map [(.text "cookies", .list [.record record])]) (saving none) trace
        (.ok (some "sessions/m.json")) after ∧
      ((load "m").perform after).1 ≠ .ok { cookies := [record] } := by
  have savable : SessionState.IsSavable (.map [(.text "cookies", .list [.record record])]) :=
    ⟨{ cookies := [record] }, text, SessionState.ofValue_of_given (.inl rfl) (.inr ⟨rfl, rfl⟩),
      written⟩
  obtain ⟨trace, result, after, occasion⟩ :=
    exists_occasion (.map [(.text "cookies", .list [.record record])]) (saving none)
  obtain rfl := occasion.returns savable nofun
  refine ⟨trace, after, occasion, fun loaded => ?_⟩
  obtain ⟨value, -, -, -, keeps⟩ :=
    (occasion.course saving_accepted).session_kept (saving_session _)
  obtain ⟨state, content, -, -, loads⟩ := (keeps nofun).load rfl
  rw [loads] at loaded
  obtain ⟨entry, member, wild⟩ := immodest
  exact wild ((SessionState.ofText_modest loaded).1 record List.mem_cons_self entry member)

theorem deepState_unloadable :
    let deep : Record := [("v", Json.stack (SessionState.depthAllowed + 1))]
    ∃ trace after,
      Occasion (.map [(.text "cookies", .list [.record deep])]) (saving none) trace
        (.ok (some "sessions/m.json")) after ∧
      ((load "m").perform after).1 ≠ .ok { cookies := [deep] } := by
  intro deep
  have data : ∀ record ∈ [deep], SessionState.IsDataRecord (SessionState.depthAllowed + 1) record :=
    List.forall_mem_singleton.mpr
      ⟨by decide, List.forall_mem_singleton.mpr (Json.isData_stack _)⟩
  obtain ⟨text, written, -⟩ := SessionState.exists_text (by decide) data (List.forall_mem_nil _)
  refine immodestState_unloadable written ⟨_, List.mem_cons_self, fun modest => ?_⟩
  exact absurd (Json.le_of_isModest_stack modest) (Nat.not_succ_le_self _)

theorem longNumber_unloadable {n : Nat} (long : 10 ^ Numeral.digitLimit ≤ n) :
    ∃ trace after,
      Occasion (.map [(.text "cookies", .list [.record [("v", .int n)]])]) (saving none) trace
        (.ok (some "sessions/m.json")) after ∧
      ((load "m").perform after).1 ≠ .ok { cookies := [[("v", .int n)]] } := by
  obtain ⟨text, written⟩ : ∃ text,
      SessionState.text { cookies := [[("v", .int n)]] } = .ok text := ⟨_, rfl⟩
  refine immodestState_unloadable written ⟨_, List.mem_cons_self, fun modest => ?_⟩
  exact absurd modest.lt (Nat.not_lt.mpr long)

end Occasions

/-- The calls of every login are a first part of one script. The first call that fails is the last
one, and the login fails with it; when none fails and the session can be saved, all are made. The
form is not sent before everything in it has been filled in. Up to the sign of success, files and
store stay as they are. A login that returns has saved the session under its id, where it is loaded
as the browser gave it, unless it is nested too deep or the cookies have been written over it; and
the cookies are in their file. -/
theorem login_in_order (page : PageId) (url : String) (credentials : Credentials) (form : LoginForm)
    {outcome : LoginOutcome} {desk after : Desk} {trace : List Exchange}
    {result : Except Failure (Option String)}
    (accepted : ∀ id, outcome.session? = some id → SessionStore.checkId id = .ok ())
    (writable : ∀ id, outcome.session? = some id → desk.Takes id)
    (run : (login page url credentials form outcome).Runs trace result)
    (served : desk.ServesAll trace after) :
    let calls := trace.filterMap Exchange.browser?
    let entry := entryCalls page url credentials form outcome
    let script := entry ++ keepCalls outcome
    calls.map Prod.fst <+: script ∧
    (∀ before call failure rest, calls = before ++ (call, .error failure) :: rest →
      rest = [] ∧ ∃ fault, result = .error fault) ∧
    ((∀ call ∈ calls, call.2.isOk = true) →
      (∀ value, (Call.storageState, .ok value) ∈ calls → SessionState.IsSavable value) →
        calls.map Prod.fst = script) ∧
    (∀ before reply rest,
      calls = before ++ (.click page form.selectors.submit, reply) :: rest →
        fillCalls page url credentials form <+: before.map Prod.fst ∧
          ∀ earlier ∈ before, ∃ value, earlier.2 = .ok value) ∧
    (calls.map Prod.fst <+: entry → after.files = desk.files ∧ after.store = desk.store) ∧
    ∀ saved, result = .ok saved →
      (∀ id, outcome.session? = some id → ∃ value, (Call.storageState, .ok value) ∈ calls ∧
        saved = some (desk.store.file id) ∧ after.store.pathOf id = desk.store.file id ∧
        ∀ entries cookies origins, value = .map entries →
          SessionState.Gives entries "cookies" cookies →
          SessionState.Gives entries "origins" origins →
          (∀ record ∈ cookies ++ origins,
            SessionState.IsDataRecord SessionState.depthAllowed record) →
          (∀ file, outcome.cookiesPath = some file →
            ¬ after.files.Meet file (desk.store.file id)) →
          (load id).perform after = (.ok { cookies, origins }, after)) ∧
      ∀ file, outcome.cookiesPath = some file → ∃ cookies text,
        (Call.cookies none, .ok cookies) ∈ calls ∧ cookiesText cookies = .ok text ∧
          after.files.read file = .ok text := by
  intro calls entry script
  have course := login_course accepted run served
  obtain ⟨halt, follows, failing⟩ := course.follows
  refine ⟨follows.isPrefix, ?_, course.complete accepted writable, ?_, course.untouched, ?_⟩
  · intro before call failure rest split
    obtain ⟨last, halted⟩ := follows.stops split
    exact ⟨last, failing halted⟩
  · intro before reply rest split
    exact course.fills split
  · rintro saved rfl
    refine ⟨fun id wanted => ?_, fun file wanted => course.cookies_kept wanted⟩
    obtain ⟨value, member, path, remembered, keeps⟩ := course.session_kept wanted
    refine ⟨value, member, path, remembered, ?_⟩
    rintro entries cookies origins rfl cookiesGiven originsGiven data apart
    obtain ⟨cookiesData, originsData⟩ := List.forall_mem_append.mp data
    exact (keeps apart).load_of_data (accepted id wanted) cookiesGiven originsGiven
      (SessionState.isLossless_of_data cookiesData originsData)

theorem login_in_order_saved :
    let state : SessionState := { cookies := [[("name", .text "sid")]] }
    let source : Value := .map [(.text "cookies", .list (state.cookies.map .record))]
    let outcome := saving (some "sessions/c.json")
    (∀ id, outcome.session? = some id → SessionStore.checkId id = .ok ()) ∧
    (∀ id, outcome.session? = some id → newDesk.Takes id) ∧
    ∃ trace after, Occasion source outcome trace (.ok (some "sessions/m.json")) after ∧
      (load "m").perform after = (.ok state, after) ∧
      after.files.read "sessions/c.json" = .ok "[]" := by
  intro state source outcome
  have data : ∀ record ∈ state.cookies,
      SessionState.IsDataRecord SessionState.depthAllowed record :=
    List.forall_mem_singleton.mpr ⟨by decide, List.forall_mem_singleton.mpr .text⟩
  obtain ⟨text, written, -⟩ := SessionState.exists_text (by decide) data (List.forall_mem_nil _)
  have savable : SessionState.IsSavable source :=
    ⟨state, text, SessionState.ofValue_of_given (.inl rfl) (.inr ⟨rfl, rfl⟩), written⟩
  have spelled : FilePath.child "sessions" "c.json" = "sessions/c.json" := by decide +kernel
  obtain ⟨trace, result, after, occasion⟩ := exists_occasion source outcome
  obtain rfl := occasion.returns savable fun file given => by
    obtain rfl := Option.some.inj given
    rw [← spelled]
    exact made_writable (by decide +kernel) (by decide +kernel) (by decide +kernel)
  obtain ⟨-, -, -, -, -, returns⟩ := login_in_order 0 "http://a/" ⟨"u", "p"⟩ {} saving_accepted
    saving_takes occasion.run occasion.served
  obtain ⟨session, cookies⟩ := returns _ rfl
  obtain ⟨value, member, -, -, loads⟩ := session "m" (saving_session _)
  obtain ⟨given, content, memberCookies, said, reads⟩ := cookies _ rfl
  obtain rfl := Except.ok.inj (occasion.replied _ member)
  obtain rfl := Except.ok.inj (occasion.replied _ memberCookies)
  obtain rfl : "[]" = content := Except.ok.inj said
  refine ⟨saving_accepted, saving_takes, trace, after, occasion, ?_, reads⟩
  refine loads _ state.cookies [] rfl (.inl rfl) (.inr ⟨rfl, rfl⟩) (by simpa using data) ?_
  intro file same
  obtain rfl := Option.some.inj same
  rw [← spelled] at reads ⊢
  have isName : FilePath.IsName "c.json" := ⟨by decide, by decide, by decide, by decide⟩
  exact FileTree.not_meet_of_read isName (SessionStore.isName_file rfl) (by decide) reads

/-- Where the rule has its limits: a selector that is empty is not waited for; a state that is none
is refused although no call fails; cookies may be written over the session; and what is nested too
deep, or has too long a number, is not loaded. -/
theorem login_exceptions :
    (∃ trace result after, Occasion (.map []) { successSelector := some "" } trace result after ∧
      Call.waitForSelector 0 "" none 30000 ∉
        (trace.filterMap Exchange.browser?).map Prod.fst) ∧
    (∃ trace failure after,
      Occasion (.map [(.text "cookies", .int 5)]) (saving (some "c.json")) trace (.error failure)
          after ∧
        Call.cookies none ∉ (trace.filterMap Exchange.browser?).map Prod.fst) ∧
    (∃ trace after,
      Occasion (.map []) (saving (some "sessions/m.json")) trace (.ok (some "sessions/m.json"))
          after ∧
        ∀ state, ((load "m").perform after).1 ≠ .ok state) ∧
    (let deep : Record := [("v", Json.stack (SessionState.depthAllowed + 1))]
    ∃ trace after,
      Occasion (.map [(.text "cookies", .list [.record deep])]) (saving none) trace
          (.ok (some "sessions/m.json")) after ∧
        ((load "m").perform after).1 ≠ .ok { cookies := [deep] }) ∧
    let long : Nat := 10 ^ Numeral.digitLimit
    ∃ trace after,
      Occasion (.map [(.text "cookies", .list [.record [("v", .int long)]])]) (saving none) trace
          (.ok (some "sessions/m.json")) after ∧
        ((load "m").perform after).1 ≠ .ok { cookies := [[("v", .int long)]] } :=
  ⟨emptySign_unseen, misshapenState_refused, session_overwritten, deepState_unloadable,
    longNumber_unloadable le_rfl⟩

end WebHarvest.Session
