import WebHarvest.Schema.Payload

/-!
# Calls to the browser engine

Everything the library asks of a browser engine. What the engine creates is known by a number, which
is the reply to the call that creates it.
-/

set_option autoImplicit false

namespace WebHarvest.Browser

abbrev PageId := Nat

abbrev ResourceId := Nat

/-- A call to the engine, with the arguments that are passed. -/
inductive Call where
  | startEngine
  | launch (options : Record)
  | newContext (options : Record)
  | setDefaultTimeout (ms : Int)
  | addCookies (cookies : Value)
  | newPage
  | goto (page : PageId) (url : String) (waitUntil : Option String) (timeout : Int)
  | waitForLoadState (page : PageId) (state : String) (timeout : Int)
  | waitForSelector (page : PageId) (selector : String) (state : Option String) (timeout : Int)
  /-- Runs a compiled schema on every match of a selector. -/
  | extractAll (page : PageId) (selector : String) (schema : CompiledSchema Value)
  | evaluate (page : PageId) (source : String) (argument : Value)
  | screenshot (page : PageId) (options : Record)
  | closePage (page : PageId)
  | cookies (urls : Option Value)
  | storageState
  | closeContext (context : ResourceId)
  | closeBrowser (browser : ResourceId)
  | stopEngine (engine : ResourceId)
  | fill (page : PageId) (selector value : String)
  | click (page : PageId) (selector : String)
  | expectNavigation (page : PageId) (timeout : Int)
  | navigationDone (page : PageId)

def numberOf : Value → Nat
  | .int n => n.toNat
  | _ => 0

namespace Call

def name : Call → String
  | startEngine => "start_engine"
  | launch _ => "launch"
  | newContext _ => "new_context"
  | setDefaultTimeout _ => "set_default_timeout"
  | addCookies _ => "add_cookies"
  | newPage => "new_page"
  | goto .. => "goto"
  | waitForLoadState .. => "wait_for_load_state"
  | waitForSelector .. => "wait_for_selector"
  | extractAll .. => "extract_all"
  | evaluate .. => "evaluate"
  | screenshot .. => "screenshot"
  | closePage _ => "close_page"
  | cookies _ => "cookies"
  | storageState => "storage_state"
  | closeContext _ => "close_context"
  | closeBrowser _ => "close_browser"
  | stopEngine _ => "stop_engine"
  | fill .. => "fill"
  | click .. => "click"
  | expectNavigation .. => "expect_navigation"
  | navigationDone _ => "navigation_done"

/-- A field that is recorded only when it is given. -/
private def given (name : String) : Option String → Record
  | some s => [(name, .text s)]
  | none => []

/-- The arguments of a call, by their names. Functions of a payload are listed in order. -/
def arguments : Call → Record
  | launch options => [("options", .record options)]
  | newContext options => [("options", .record options)]
  | setDefaultTimeout ms => [("ms", .int ms)]
  | addCookies added => [("cookies", added)]
  | goto _ url waitUntil timeout =>
      [("url", .text url), ("timeout", .int timeout)] ++ given "wait_until" waitUntil
  | waitForLoadState _ state timeout => [("state", .text state), ("timeout", .int timeout)]
  | waitForSelector _ selector state timeout =>
      [("selector", .text selector), ("timeout", .int timeout)] ++ given "state" state
  | extractAll _ selector schema =>
      [("selector", .text selector),
        ("payload", .record [("root", schema.root.toValue), ("callbacks", .list
          (schema.callbacks.map fun (ref, source) => .list [.text ref, .text source]))])]
  | evaluate _ source argument => [("source", .text source), ("arg", argument)]
  | screenshot _ options => options
  | cookies urls => [("args", .list urls.toList)]
  | fill _ selector value => [("selector", .text selector), ("value", .text value)]
  | click _ selector => [("selector", .text selector)]
  | expectNavigation _ timeout => [("timeout", .int timeout)]
  | _ => []

def creates : Call → Bool
  | startEngine => true
  | launch _ => true
  | newContext _ => true
  | newPage => true
  | _ => false

def page? : Call → Option PageId
  | goto page .. => some page
  | waitForLoadState page .. => some page
  | waitForSelector page .. => some page
  | extractAll page .. => some page
  | evaluate page .. => some page
  | screenshot page _ => some page
  | closePage page => some page
  | fill page .. => some page
  | click page _ => some page
  | expectNavigation page _ => some page
  | navigationDone page => some page
  | _ => none

end Call

end WebHarvest.Browser
