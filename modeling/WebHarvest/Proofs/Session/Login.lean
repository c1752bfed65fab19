import WebHarvest.Proofs.Browser.Guard
import WebHarvest.Session.Login

/-!
# The steps of a login

A login works on the page until it has seen a sign of success, if it waits for one. Only then does
it keep anything. It asks for calls of the engine, for files and for sessions, and for nothing else.
-/

set_option autoImplicit false

namespace WebHarvest

/-- Requests of whoever works on a page, keeps files and sessions, and logs. -/
def Request.isDeskwork : Request → Bool
  | .browser _ | .pageUrl _ | .log _ | .writeFile .. | .saveSession .. | .sessionPath _ => true
  | _ => false

namespace Session

open Browser (PageId)

variable (page : PageId) (url : String) (credentials : Credentials) (form : LoginForm)
variable (outcome : LoginOutcome)

/-- Waits for a sign of success, if there is to be one. -/
def awaitSign : Action Unit :=
  match outcome.successSelector with
  | some selector =>
      if !selector.isEmpty then awaitSuccess page url selector form.timeoutMs else pure ()
  | none => pure ()

/-- What a login does up to the sign of success. -/
def enter : Action Unit := do
  openLogin page url form.timeoutMs
  fillLoginForm page credentials form
  awaitSign page url form outcome

/-- Saves the session, when an id is given that is not empty. -/
def keepSession : Action (Option String) :=
  match outcome.sessionId with
  | some id => if id.isEmpty then pure none else some <$> saveBrowser id
  | none => pure none

/-- Writes the cookies to a file, when one is given. -/
def keepCookies (path : Option String) : Action (Option String) := do
  if let some cookiesPath := outcome.cookiesPath then
    let _ ← saveCookies (some cookiesPath)
  return path

/-- Keeps what there is to keep of a login that has succeeded. -/
def keep : Action (Option String) := keepSession outcome >>= keepCookies outcome

theorem login_eq :
    login page url credentials form outcome =
      enter page url credentials form outcome >>= fun _ =>
        Action.log (.info loginLogger "Logged in"
          [("url", .text url), ("username", .text credentials.username)]) >>= fun _ =>
            keep outcome := by
  have kept : keep outcome = (match outcome.sessionId with
      | some id => if id.isEmpty then pure none >>= keepCookies outcome
          else some <$> saveBrowser id >>= keepCookies outcome
      | none => pure none >>= keepCookies outcome) := by
    unfold keep keepSession
    cases outcome.sessionId with
    | none => rfl
    | some id =>
        dsimp only
        split
        · rfl
        · rfl
  simp only [enter, bind_assoc]
  refine congrArg (openLogin page url form.timeoutMs >>= ·) (funext fun _ => ?_)
  refine congrArg (fillLoginForm page credentials form >>= ·) (funext fun _ => ?_)
  rw [kept]
  unfold awaitSign
  cases outcome.successSelector with
  | none => rfl
  | some selector =>
      dsimp only
      split
      · rfl
      · rfl

theorem openLogin_asks (timeoutMs : Int) :
    (openLogin page url timeoutMs).Asks (·.isDeskwork = true) := by
  refine Action.asks_bind (Action.asks_attempt (Action.asks_browser rfl)) fun opened => ?_
  cases opened with
  | ok opened => exact Action.asks_pure ()
  | error failure => exact Action.asks_if (Action.asks_throw _) (Action.asks_throw failure)

theorem waitForField_asks (selector field : String) :
    (waitForField page form selector field).Asks (·.isDeskwork = true) := by
  refine Action.asks_bind (Action.asks_attempt (Action.asks_browser rfl)) fun found => ?_
  cases found with
  | ok found => exact Action.asks_pure ()
  | error failure =>
      exact Action.asks_if (Action.asks_bind (Action.asks_query rfl) fun url =>
        Action.asks_throw _) (Action.asks_throw failure)

theorem fillField_asks (selector field value : String) :
    (fillField page form selector field value).Asks (·.isDeskwork = true) :=
  Action.asks_bind (waitForField_asks page form selector field) fun _ =>
    Action.asks_bind (Action.asks_browser rfl) fun _ => Action.asks_pure ()

theorem submit_asks : (submit page form).Asks (·.isDeskwork = true) := by
  have calls (call : Browser.Call) : (Action.browser call).Asks (·.isDeskwork = true) :=
    Action.asks_browser rfl
  refine Action.asks_bind (waitForField_asks page form _ _) fun _ => ?_
  refine Action.asks_if ?_ (Action.asks_bind (calls _) fun _ => Action.asks_pure ())
  exact Action.asks_bind (calls _) fun _ => Action.asks_bind (calls _) fun _ =>
    Action.asks_bind (calls _) fun _ => Action.asks_pure ()

theorem awaitSign_asks : (awaitSign page url form outcome).Asks (·.isDeskwork = true) := by
  have waits (selector : String) :
      (awaitSuccess page url selector form.timeoutMs).Asks (·.isDeskwork = true) := by
    refine Action.asks_bind (Action.asks_attempt (Action.asks_browser rfl)) fun found => ?_
    cases found with
    | ok found => exact Action.asks_pure ()
    | error failure => exact Action.asks_if (Action.asks_throw _) (Action.asks_throw failure)
  unfold awaitSign
  cases outcome.successSelector with
  | none => exact Action.asks_pure ()
  | some selector => exact Action.asks_if (waits selector) (Action.asks_pure ())

theorem keepSession_asks : (keepSession outcome).Asks (·.isDeskwork = true) := by
  have saves (id : String) : (some <$> saveBrowser id).Asks (·.isDeskwork = true) := by
    rw [map_eq_pure_bind]
    exact Action.asks_bind (Action.asks_bind (.ask rfl fun _ => .done _) fun _ =>
      Action.asks_bind (Action.asks_browser rfl) fun _ => .ask rfl fun _ => .done _) fun _ =>
        Action.asks_pure _
  unfold keepSession
  cases outcome.sessionId with
  | none => exact Action.asks_pure none
  | some id => exact Action.asks_if (Action.asks_pure none) (saves id)

theorem keep_asks : (keep outcome).Asks (·.isDeskwork = true) := by
  refine Action.asks_bind (keepSession_asks outcome) fun path => ?_
  unfold keepCookies
  cases outcome.cookiesPath with
  | none => exact Action.asks_pure path
  | some file =>
      refine Action.asks_bind (Action.asks_bind (Action.asks_browser rfl) fun cookies => ?_)
        fun _ => Action.asks_pure path
      exact Action.asks_bind (Action.asks_settle _) fun text =>
        Action.asks_bind (.ask rfl fun _ => .done _) fun _ => Action.asks_pure cookies

theorem login_asks :
    (login page url credentials form outcome).Asks (·.isDeskwork = true) := by
  rw [login_eq]
  refine Action.asks_bind ?_ fun _ => Action.asks_bind (Action.asks_log rfl) fun _ =>
    keep_asks outcome
  refine Action.asks_bind (openLogin_asks page url form.timeoutMs) fun _ =>
    Action.asks_bind ?_ fun _ => awaitSign_asks page url form outcome
  exact Action.asks_bind (fillField_asks page form _ _ _) fun _ =>
    Action.asks_bind (fillField_asks page form _ _ _) fun _ => submit_asks page form

end Session

end WebHarvest
