import WebHarvest.Session.Cookies
import WebHarvest.Session.Credentials

/-!
# Logging in

A login opens a page, fills its form, sends it, and waits for a sign of success. Then the session
and the cookies of the browser are saved as far as the caller asks for it.
-/

set_option autoImplicit false

namespace WebHarvest.Session

def loginLogger : String := componentLogger "session.auth"

structure LoginForm where
  selectors : LoginSelectors := {}
  timeoutMs : Int := 30000
  /-- Sending the form leads to another page, which has to be waited for. -/
  waitForNavigation : Bool := true

structure LoginOutcome where
  /-- A selector that shows that the login has succeeded. -/
  successSelector : Option String := none
  sessionId : Option String := none
  /-- The file that the cookies are written to. -/
  cookiesPath : Option String := none

def waitForField (page : Browser.PageId) (form : LoginForm) (selector field : String) :
    Action Unit := do
  match ← (Action.browser (.waitForSelector page selector none form.timeoutMs)).attempt with
  | .ok _ => return
  | .error failure =>
      if failure.isBrowserTimeout then
        throw <| .harvest .matchTimeout (field ++ " field not found with selector: " ++ selector)
          (some (← Action.query (.pageUrl page))) (some "fill_login_form") (some selector)
          (some failure)
      else throw failure

def fillField (page : Browser.PageId) (form : LoginForm) (selector field value : String) :
    Action Unit := do
  waitForField page form selector field
  let _ ← Action.browser (.fill page selector value)

def submit (page : Browser.PageId) (form : LoginForm) : Action Unit := do
  let selector := form.selectors.submit
  waitForField page form selector "Submit"
  if form.waitForNavigation then
    let _ ← Action.browser (.expectNavigation page form.timeoutMs)
    let _ ← Action.browser (.click page selector)
    let _ ← Action.browser (.navigationDone page)
  else
    let _ ← Action.browser (.click page selector)

def fillLoginForm (page : Browser.PageId) (credentials : Credentials) (form : LoginForm) :
    Action Unit := do
  fillField page form form.selectors.username "Username" credentials.username
  fillField page form form.selectors.password "Password" credentials.password
  submit page form

def openLogin (page : Browser.PageId) (url : String) (timeoutMs : Int) : Action Unit := do
  match ← (Action.browser (.goto page url none timeoutMs)).attempt with
  | .ok _ => return
  | .error failure =>
      if failure.isBrowser then
        throw <| .harvest .navigation ("Navigation to " ++ url ++ " failed: " ++ failure.message)
          (some url) (some "login") none (some failure)
      else throw failure

def awaitSuccess (page : Browser.PageId) (url selector : String) (timeoutMs : Int) :
    Action Unit := do
  match ← (Action.browser (.waitForSelector page selector none timeoutMs)).attempt with
  | .ok _ => return
  | .error failure =>
      if failure.isBrowserTimeout then
        throw <| .harvest .matchTimeout ("Login did not reach " ++ Text.quoted selector)
          (some url) (some "login") (some selector) (some failure)
      else throw failure

/-- Saves the session of the browser under an id, which is checked before the browser is asked. -/
def saveBrowser (id : String) : Action String := do
  let _ ← Action.sessionPath id
  Action.saveSession id (← Action.browser .storageState)

/-- Logs in. The result is the path of the saved session, if one was saved. -/
def login (page : Browser.PageId) (url : String) (credentials : Credentials) (form : LoginForm)
    (outcome : LoginOutcome) : Action (Option String) := do
  openLogin page url form.timeoutMs
  fillLoginForm page credentials form
  match outcome.successSelector with
  | some selector => if !selector.isEmpty then awaitSuccess page url selector form.timeoutMs
  | none => pure ()
  Action.log <| .info loginLogger "Logged in"
    [("url", .text url), ("username", .text credentials.username)]
  let path ← match outcome.sessionId with
    | some id => if id.isEmpty then pure none else some <$> saveBrowser id
    | none => pure none
  if let some cookiesPath := outcome.cookiesPath then
    let _ ← saveCookies (some cookiesPath)
  return path

end WebHarvest.Session
