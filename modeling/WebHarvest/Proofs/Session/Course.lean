import WebHarvest.Proofs.Session.Service

/-!
# The course of a login

A login makes its calls in a fixed order, the first that fails being the last. Files and sessions are
not touched before all calls up to the sign of success have succeeded; when a login returns, the
session is kept under its id and the cookies are in their file, as far as it was asked for.
-/

set_option autoImplicit false

namespace WebHarvest.Session

open Browser (Call Halt PageId)

/-- The id under which the session is to be saved; an empty one does not count. -/
def LoginOutcome.session? (outcome : LoginOutcome) : Option String :=
  outcome.sessionId.filter fun id => !id.isEmpty

/-- The selector to wait for; an empty one does not count. -/
def LoginOutcome.sign? (outcome : LoginOutcome) : Option String :=
  outcome.successSelector.filter fun selector => !selector.isEmpty

section Entering

variable (page : PageId) (url : String) (credentials : Credentials) (form : LoginForm)
variable (outcome : LoginOutcome)

/-- The form is sent by a click, which may lead to another page. -/
def submitCalls : List Call :=
  if form.waitForNavigation then
    [.expectNavigation page form.timeoutMs, .click page form.selectors.submit,
      .navigationDone page]
  else [.click page form.selectors.submit]

def signCalls : List Call :=
  match outcome.sign? with
  | some selector => [.waitForSelector page selector none form.timeoutMs]
  | none => []

/-- The calls before the form is sent. -/
def fillCalls : List Call :=
  [.goto page url none form.timeoutMs,
    .waitForSelector page form.selectors.username none form.timeoutMs,
    .fill page form.selectors.username credentials.username,
    .waitForSelector page form.selectors.password none form.timeoutMs,
    .fill page form.selectors.password credentials.password,
    .waitForSelector page form.selectors.submit none form.timeoutMs]

/-- The calls up to the sign of success. -/
def entryCalls : List Call :=
  fillCalls page url credentials form ++ submitCalls page form ++ signCalls page form outcome

theorem openLogin_follows (timeoutMs : Int) :
    (openLogin page url timeoutMs).Follows [.goto page url none timeoutMs] := by
  refine Action.follows_attempt (fun _ => Action.follows_pure ()) fun failure => ?_
  dsimp only
  split
  · exact Action.givesUp_throw _
  · exact Action.givesUp_throw _

theorem waitForField_follows (selector field : String) :
    (waitForField page form selector field).Follows
      [.waitForSelector page selector none form.timeoutMs] := by
  refine Action.follows_attempt (fun _ => Action.follows_pure ()) fun failure => ?_
  dsimp only
  split
  · exact Action.givesUp_pageUrl fun _ => Action.givesUp_throw _
  · exact Action.givesUp_throw _

theorem fillField_follows (selector field value : String) :
    (fillField page form selector field value).Follows
      [.waitForSelector page selector none form.timeoutMs, .fill page selector value] :=
  (waitForField_follows page form selector field).bind fun _ =>
    (Action.follows_browser _).bind fun _ => Action.follows_pure ()

theorem submit_follows : (submit page form).Follows
    (.waitForSelector page form.selectors.submit none form.timeoutMs :: submitCalls page form) := by
  refine (waitForField_follows page form _ _).bind fun _ => ?_
  split
  · exact (Action.follows_browser _).bind fun _ => (Action.follows_browser _).bind fun _ =>
      (Action.follows_browser _).bind fun _ => Action.follows_pure ()
  · exact (Action.follows_browser _).bind fun _ => Action.follows_pure ()

theorem awaitSuccess_follows (selector : String) (timeoutMs : Int) :
    (awaitSuccess page url selector timeoutMs).Follows
      [.waitForSelector page selector none timeoutMs] := by
  refine Action.follows_attempt (fun _ => Action.follows_pure ()) fun failure => ?_
  dsimp only
  split
  · exact Action.givesUp_throw _
  · exact Action.givesUp_throw _

theorem awaitSign_follows :
    (awaitSign page url form outcome).Follows (signCalls page form outcome) := by
  unfold awaitSign signCalls LoginOutcome.sign?
  cases outcome.successSelector with
  | none => exact Action.follows_pure ()
  | some selector =>
      dsimp only
      cases empty : selector.isEmpty with
      | true =>
          simp only [empty, Option.filter]
          exact Action.follows_pure ()
      | false =>
          simp only [empty, Option.filter]
          exact awaitSuccess_follows page url selector form.timeoutMs

theorem enter_follows : (enter page url credentials form outcome).Follows
    (entryCalls page url credentials form outcome) := by
  have fills := (fillField_follows page form form.selectors.username "Username"
      credentials.username).bind fun _ =>
    (fillField_follows page form form.selectors.password "Password" credentials.password).bind
      fun _ => submit_follows page form
  have whole := (openLogin_follows page url form.timeoutMs).bind fun _ => fills.bind fun _ =>
    awaitSign_follows page url form outcome
  exact whole

end Entering

section Keeping

variable {α : Type} {desk after : Desk} {trace : List Exchange}

/-- The text of cookies is written to a file. -/
def storeCookies (path : String) (cookies : Value) : Access Unit := do
  let text ← settle (cookiesText cookies)
  change (·.write path text)

/-- A call is made, and what it gives is worked on at a desk. -/
def Deposits (call : Call) (work : Value → Access α) (desk : Desk) (calls : List Browser.Exchange)
    (result : Except Failure α) (after : Desk) : Prop :=
  (∃ failure, calls = [(call, .error failure)] ∧ result = .error failure ∧ after = desk) ∨
    ∃ value, calls = [(call, .ok value)] ∧ (work value).perform desk = (result, after)

theorem deposits_of_run {call : Call} {next : Value → Action α} {work : Value → Access α}
    (works : ∀ {value trace result}, (next value).Runs trace result → desk.ServesAll trace after →
      trace.filterMap Exchange.browser? = [] ∧ (work value).perform desk = (result, after))
    {result : Except Failure α} (run : (Action.browser call >>= next).Runs trace result)
    (served : desk.ServesAll trace after) :
    Deposits call work desk (trace.filterMap Exchange.browser?) result after := by
  rcases Action.runs_bind.mp run with ⟨before, value, later, asked, rest, rfl⟩ | ⟨failure, asked, rfl⟩
  · obtain rfl := Program.runs_request.mp asked
    cases served with
    | cons head tail =>
        obtain rfl : _ = desk := head
        obtain ⟨silent, worked⟩ := works rest tail
        refine .inr ⟨value, ?_, worked⟩
        rw [List.filterMap_append, silent]
        rfl
  · obtain rfl := Program.runs_request.mp asked
    exact .inl ⟨failure, rfl, rfl, Desk.servesAll_single.mp served⟩

/-- The same, if there is anything that it is wanted for. -/
def DepositsIf {β : Type} (wanted : Option β) (call : Call) (work : β → Value → Access α)
    (otherwise : α) (desk : Desk) (calls : List Browser.Exchange) (result : Except Failure α)
    (after : Desk) : Prop :=
  match wanted with
  | some item => Deposits call (work item) desk calls result after
  | none => calls = [] ∧ result = .ok otherwise ∧ after = desk

theorem depositsIf_none {β : Type} {call : Call} {work : β → Value → Access α} {otherwise : α}
    {result : Except Failure α} (run : (pure otherwise : Action α).Runs trace result)
    (served : desk.ServesAll trace after) :
    DepositsIf none call work otherwise desk (trace.filterMap Exchange.browser?) result after := by
  obtain ⟨rfl, rfl⟩ := Action.runs_pure.mp run
  cases served
  exact ⟨rfl, rfl, rfl⟩

variable {outcome : LoginOutcome}

/-- The session is saved, if it is to be. -/
def KeepsSession (outcome : LoginOutcome) (desk : Desk) (calls : List Browser.Exchange)
    (result : Except Failure (Option String)) (after : Desk) : Prop :=
  DepositsIf outcome.session? .storageState (fun id value => some <$> save id value) none desk
    calls result after

/-- The cookies are written, if they are to be. -/
def KeepsCookies (outcome : LoginOutcome) (path : Option String) (desk : Desk)
    (calls : List Browser.Exchange) (result : Except Failure (Option String)) (after : Desk) :
    Prop :=
  DepositsIf outcome.cookiesPath (.cookies none)
    (fun file value => do storeCookies file value; return path) path desk calls result after

theorem saveBrowser_runs {id : String} {result : Except Failure String}
    (accepted : SessionStore.checkId id = .ok ()) (run : (saveBrowser id).Runs trace result)
    (served : desk.ServesAll trace after) :
    Deposits .storageState (save id) desk (trace.filterMap Exchange.browser?) result after := by
  have looked {before : List Exchange} {outcome : Except Failure String} {middle : Desk}
      (run : (Action.sessionPath id).Runs before outcome) (served : desk.ServesAll before middle) :
      before.filterMap Exchange.browser? = [] ∧ (∃ path, outcome = .ok path) ∧ middle = desk := by
    obtain rfl := Program.runs_request.mp run
    have told : (pathOf id).perform desk = (outcome, middle) := Desk.servesAll_single.mp served
    rw [perform_pathOf accepted] at told
    obtain ⟨rfl, rfl⟩ := Prod.mk.inj told
    exact ⟨rfl, ⟨_, rfl⟩, rfl⟩
  rcases Action.runs_bind.mp run with ⟨before, path, later, first, rest, rfl⟩ | ⟨failure, first, rfl⟩
  · obtain ⟨middle, servedFirst, servedRest⟩ := Desk.servesAll_append.mp served
    obtain ⟨silent, -, rfl⟩ := looked first servedFirst
    rw [List.filterMap_append, silent]
    refine deposits_of_run (fun saves servedSaves => ?_) rest servedRest
    obtain rfl := Program.runs_request.mp saves
    exact ⟨rfl, Desk.servesAll_single.mp servedSaves⟩
  · obtain ⟨-, ⟨_, same⟩, -⟩ := looked first served
    cases same

theorem perform_map {β : Type} (f : α → β) (access : Access α) :
    (f <$> access).perform desk =
      (f <$> (access.perform desk).1, (access.perform desk).2) := by
  rw [map_eq_pure_bind, perform_bind]
  cases access.perform desk with
  | mk outcome middle => cases outcome <;> rfl

theorem Deposits.map {β : Type} {call : Call} {work : Value → Access α}
    {calls : List Browser.Exchange} {result : Except Failure α}
    (deposits : Deposits call work desk calls result after) (f : α → β) :
    Deposits call (fun value => f <$> work value) desk calls (f <$> result) after := by
  rcases deposits with ⟨failure, same, rfl, rfl⟩ | ⟨value, same, worked⟩
  · exact .inl ⟨failure, same, rfl, rfl⟩
  · exact .inr ⟨value, same, by rw [perform_map, worked]⟩

theorem keepsSession_of_run
    (accepted : ∀ id, outcome.session? = some id → SessionStore.checkId id = .ok ())
    {result : Except Failure (Option String)} (run : (keepSession outcome).Runs trace result)
    (served : desk.ServesAll trace after) :
    KeepsSession outcome desk (trace.filterMap Exchange.browser?) result after := by
  unfold keepSession at run
  unfold KeepsSession LoginOutcome.session? at *
  cases given : outcome.sessionId with
  | none =>
      rw [given] at run
      exact depositsIf_none run served
  | some id =>
      rw [given] at run accepted
      cases empty : id.isEmpty with
      | true =>
          simp only [empty, if_true] at run
          simp only [empty, Option.filter]
          exact depositsIf_none run served
      | false =>
          simp only [empty, Bool.false_eq_true, if_false, Option.filter, Bool.not_false,
            if_true] at run accepted ⊢
          rw [map_eq_pure_bind] at run
          rcases Action.runs_bind.mp run with
            ⟨before, path, later, saves, ends, rfl⟩ | ⟨failure, saves, rfl⟩
          · obtain ⟨rfl, rfl⟩ := Action.runs_pure.mp ends
            rw [List.append_nil] at served ⊢
            exact (saveBrowser_runs (accepted id rfl) saves served).map some
          · exact (saveBrowser_runs (accepted id rfl) saves served).map some

theorem storeCookies_of_run {file : String} {value : Value} {path : Option String}
    {result : Except Failure (Option String)}
    (run : (Action.settle (cookiesText value) >>= fun text =>
      Action.writeFile file text >>= fun _ => pure path : Action (Option String)).Runs trace result)
    (served : desk.ServesAll trace after) :
    trace.filterMap Exchange.browser? = [] ∧
      (do storeCookies file value; return path : Access (Option String)).perform desk =
        (result, after) := by
  unfold storeCookies
  cases said : cookiesText value with
  | error failure =>
      rw [said] at run
      obtain ⟨rfl, rfl⟩ := Program.runs_done.mp run
      cases served
      exact ⟨rfl, rfl⟩
  | ok text =>
      rw [said] at run
      have told {outcome : Except Failure Unit} {before : List Exchange}
          (wrote : (Action.writeFile file text).Runs before outcome)
          (servedWrite : desk.ServesAll before after) :
          before.filterMap Exchange.browser? = [] ∧
            (change (·.write file text)).perform desk = (outcome, after) := by
        obtain rfl := Program.runs_request.mp wrote
        exact ⟨rfl, Desk.servesAll_single.mp servedWrite⟩
      simp only [perform_bind, perform_settle]
      rcases Action.runs_bind.mp (show (Action.writeFile file text >>= fun _ => pure path :
          Action (Option String)).Runs trace result from run) with
        ⟨before, _, later, wrote, ends, rfl⟩ | ⟨failure, wrote, rfl⟩
      · obtain ⟨rfl, rfl⟩ := Action.runs_pure.mp ends
        rw [List.append_nil] at served ⊢
        obtain ⟨silent, performed⟩ := told wrote served
        rw [performed]
        exact ⟨silent, rfl⟩
      · obtain ⟨silent, performed⟩ := told wrote served
        rw [performed]
        exact ⟨silent, rfl⟩

theorem keepsCookies_of_run {path : Option String} {result : Except Failure (Option String)}
    (run : (keepCookies outcome path).Runs trace result) (served : desk.ServesAll trace after) :
    KeepsCookies outcome path desk (trace.filterMap Exchange.browser?) result after := by
  unfold keepCookies at run
  unfold KeepsCookies
  cases given : outcome.cookiesPath with
  | none =>
      simp only [given] at run
      exact depositsIf_none run served
  | some file =>
      simp only [given, saveCookies, bind_assoc, pure_bind] at run
      exact deposits_of_run storeCookies_of_run run served

theorem keep_of_run
    (accepted : ∀ id, outcome.session? = some id → SessionStore.checkId id = .ok ())
    {result : Except Failure (Option String)} (run : (keep outcome).Runs trace result)
    (served : desk.ServesAll trace after) :
    (∃ failure, KeepsSession outcome desk (trace.filterMap Exchange.browser?) (.error failure)
      after ∧ result = .error failure) ∨
    ∃ first path middle second, KeepsSession outcome desk first (.ok path) middle ∧
      KeepsCookies outcome path middle second result after ∧
        trace.filterMap Exchange.browser? = first ++ second := by
  rcases Action.runs_bind.mp run with ⟨before, path, later, saves, writes, rfl⟩ | ⟨failure, saves, rfl⟩
  · obtain ⟨middle, servedSave, servedWrite⟩ := Desk.servesAll_append.mp served
    exact .inr ⟨_, path, middle, _, keepsSession_of_run accepted saves servedSave,
      keepsCookies_of_run writes servedWrite, List.filterMap_append⟩
  · exact .inl ⟨failure, keepsSession_of_run accepted saves served, rfl⟩

/-- How a login goes, by the calls it makes, its result and the desk it leaves. -/
inductive LoginCourse (page : PageId) (url : String) (credentials : Credentials) (form : LoginForm)
    (outcome : LoginOutcome) (desk : Desk) :
    List Browser.Exchange → Except Failure (Option String) → Desk → Prop where
  /-- It does not come to the sign of success. -/
  | lost {calls : List Browser.Exchange} {failure : Failure}
      (entry : Browser.Follows (entryCalls page url credentials form outcome) calls .failed) :
      LoginCourse page url credentials form outcome desk calls (.error failure) desk
  /-- The session cannot be saved. -/
  | unsaved {entered calls : List Browser.Exchange} {log : List LogRecord} {failure : Failure}
      {after : Desk}
      (entry : Browser.Follows (entryCalls page url credentials form outcome) entered .finished)
      (session : KeepsSession outcome { desk with log } calls (.error failure) after) :
      LoginCourse page url credentials form outcome desk (entered ++ calls) (.error failure) after
  /-- It comes to the cookies, if there are any to write. -/
  | kept {entered first second : List Browser.Exchange} {log : List LogRecord}
      {path : Option String} {middle after : Desk} {result : Except Failure (Option String)}
      (entry : Browser.Follows (entryCalls page url credentials form outcome) entered .finished)
      (session : KeepsSession outcome { desk with log } first (.ok path) middle)
      (cookies : KeepsCookies outcome path middle second result after) :
      LoginCourse page url credentials form outcome desk (entered ++ (first ++ second)) result after

variable {page : PageId} {url : String} {credentials : Credentials} {form : LoginForm}

theorem login_course
    (accepted : ∀ id, outcome.session? = some id → SessionStore.checkId id = .ok ())
    {result : Except Failure (Option String)}
    (run : (login page url credentials form outcome).Runs trace result)
    (served : desk.ServesAll trace after) :
    LoginCourse page url credentials form outcome desk (trace.filterMap Exchange.browser?) result
      after := by
  rw [login_eq] at run
  rcases Action.runs_bind.mp run with ⟨entering, _, later, enters, rest, rfl⟩ | ⟨failure, enters, rfl⟩
  · obtain ⟨pagework, entry⟩ := enter_follows page url credentials form outcome enters
    obtain ⟨middle, servedEntry, servedRest⟩ := Desk.servesAll_append.mp served
    obtain rfl := servedEntry.of_pagework pagework
    rcases Action.runs_bind.mp rest with ⟨logging, _, keeping, logs, keeps, rfl⟩ | ⟨failure, logs, -⟩
    · obtain ⟨_, rfl, -⟩ := Action.runs_query.mp logs
      obtain ⟨logged, servedLog, servedKeeping⟩ := Desk.servesAll_append.mp servedRest
      obtain rfl := Desk.serves_log.mp (Desk.servesAll_single.mp servedLog)
      rw [List.filterMap_append, List.filterMap_append, List.filterMap_cons_none rfl,
        List.filterMap_nil, List.nil_append]
      rcases keep_of_run accepted keeps servedKeeping with
        ⟨failure, session, rfl⟩ | ⟨first, path, between, second, session, cookies, split⟩
      · exact .unsaved entry session
      · exact split ▸ .kept entry session cookies
    · obtain ⟨_, -, same⟩ := Action.runs_query.mp logs
      cases same
  · obtain ⟨pagework, entry⟩ := enter_follows page url credentials form outcome enters
    obtain rfl := served.of_pagework pagework
    exact .lost entry

end Keeping

end WebHarvest.Session
