import WebHarvest.Browser.Call
import WebHarvest.Simulation.Script

/-!
# A simulated browser engine

The engine follows scripts: one for each URL, and a general one for what the URL's script does not
know. It records every call, keeps the cookies of the latest context in a jar, numbers what it
creates, and knows which URL each page shows.
-/

set_option autoImplicit false

namespace WebHarvest.Simulation

structure Engine where
  script : Script := []
  byUrl : List (String × Script) := []
  /-- The cookies that every new context begins with. -/
  startJar : List Value := []
  /-- The cookies of the latest context. -/
  jar : List Value := startJar
  /-- Selectors that never appear. -/
  missing : List String := []
  /-- Cookies that the site sets when something is clicked. -/
  clickCookies : List Value := []
  urls : List (Browser.PageId × String) := []
  pages : Nat := 0
  resources : Nat := 0
  calls : List (Int × Browser.Call) := []

namespace Engine

open Browser (Call PageId)

def urlOf (engine : Engine) (page : PageId) : String :=
  ((engine.urls.find? (·.1 == page)).map (·.2)).getD "about:blank"

def visit (engine : Engine) : Call → Engine
  | .goto page url _ _ =>
      { engine with urls := (page, url) :: engine.urls.filter (·.1 != page) }
  | _ => engine

def takeTurn (engine : Engine) (call : Call) : Turn × Engine :=
  let script? := call.page?.bind fun page =>
    (engine.byUrl.find? fun (url, script) =>
      url == engine.urlOf page && script.knows call.name)
  match script? with
  | some (url, script) =>
      let (turn, rest) := script.next call.name
      (turn, { engine with
        byUrl := engine.byUrl.map fun (u, s) => if u == url then (u, rest) else (u, s) })
  | none =>
      let (turn, rest) := engine.script.next call.name
      (turn, { engine with script := rest })

/-- Waits for a missing selector end at once. -/
def missingFailure? (engine : Engine) : Call → Option Failure
  | .waitForSelector _ selector _ _ =>
      if engine.missing.contains selector then
        some (.raise .browserTimeout ("Timeout waiting for " ++ selector))
      else none
  | _ => none

/-- A call begins: it is recorded, and its turn is taken. -/
def begin (engine : Engine) (now : Int) (call : Call) : Turn × Engine :=
  let engine := { visit engine call with calls := engine.calls ++ [(now, call)] }
  match missingFailure? engine call, call with
  | some failure, _ => ({ outcome := some (.error failure) }, engine)
  | none, .setDefaultTimeout _ => ({}, engine)
  | none, call => takeTurn engine call

private def create (engine : Engine) : Engine × Value :=
  ({ engine with resources := engine.resources + 1 }, .ofNat (engine.resources + 1))

def addToJar (engine : Engine) (cookies : List Value) : Engine :=
  { engine with jar := engine.jar ++ cookies }

/-- What comes out of a value item by item: a mapping gives its keys, a text its characters. -/
private def itemsOf : Value → Except Failure (List Value)
  | .list items => .ok items
  | .tuple items => .ok items
  | .map entries => .ok (entries.map (·.1))
  | .text s => .ok (s.toList.map fun c => .text c.toString)
  | value => .error (.type ("'" ++ value.typeName ++ "' object is not iterable"))

/-- The result that a call has of its own, and what the call does. -/
def perform (engine : Engine) : Call → Engine × Value
  | .startEngine => create engine
  | .launch _ => create engine
  | .newContext _ => create { engine with jar := engine.startJar }
  | .newPage => ({ engine with pages := engine.pages + 1 }, .ofNat (engine.pages + 1))
  | .click .. => (addToJar engine engine.clickCookies, .null)
  | .extractAll .. => (engine, .list [])
  | .screenshot .. => (engine, .bytes [0x89, 0x50, 0x4e, 0x47])
  | .cookies _ => (engine, .list engine.jar)
  | .storageState => (engine, .record [("cookies", .list engine.jar), ("origins", .list [])])
  | _ => (engine, .null)

/-- Whether the reply to a call can be prescribed: it is neither the number of something new nor
what the jar holds. -/
private def repliesFreely (call : Call) : Bool := !(call.creates || call matches .cookies _)

def finish (engine : Engine) (call : Call) (turn : Turn) : Engine × Except Failure Value :=
  match turn.outcome, call with
  | some (.error failure), _ => (engine, .error failure)
  | _, .addCookies cookies =>
      match itemsOf cookies with
      | .ok cookies => (addToJar engine cookies, .ok .null)
      | .error failure => (engine, .error failure)
  | some (.ok result), call =>
      let (engine, own) := perform engine call
      (engine, .ok (if repliesFreely call then result else own))
  | none, call =>
      let (engine, own) := perform engine call
      (engine, .ok own)

end Engine

end WebHarvest.Simulation
