import WebHarvest.Json.Reader
import WebHarvest.Program.Basic

/-!
# Cookies

Cookies are read from the browser, kept in files of their own, and given back to a browser.
-/

set_option autoImplicit false

namespace WebHarvest.Session

def cookiesText (cookies : Value) : Except Failure String :=
  match Json.write Json.cookieStyle cookies with
  | .ok text => .ok text
  | .error fault => .error (.notJson fault)

/-- The browser's cookies, which are also written to a file when a path is given. -/
def saveCookies (path : Option String) : Action Value := do
  let cookies ← Action.browser (.cookies none)
  if let some path := path then Action.writeFile path (← Action.settle (cookiesText cookies))
  return cookies

def readCookies (path : String) : Action Value := do
  match Json.read .plain (← Action.readFile path) with
  | .ok cookies => return cookies
  | .error .malformed => throw .malformedJson
  | .error (.tooManyDigits digits) => throw (.tooManyDigits digits)

/-- Adds cookies to the browser: a list of them, or those in the file at a path. -/
def loadCookies (source : Value) : Action Unit := do
  let cookies ← match source with
    | .text path => readCookies path
    | .list cookies => pure (.list cookies)
    | _ => throw (.type "cookies_or_path must be a file path or a list of cookies")
  let _ ← Action.browser (.addCookies cookies)

end WebHarvest.Session
