import WebHarvest.Files.Tree
import WebHarvest.Session.State
import WebHarvest.Telemetry

/-!
# The session store

Sessions are files below one directory, each named for its id. A record exists only after an
explicit save and changes only by another save or by deletion. The store also remembers where it has
written sessions, but what counts are the files: they may appear or vanish by other means.

A session is saved by writing a temporary file first and renaming it, so that a session file always
holds a whole state.
-/

set_option autoImplicit false

namespace WebHarvest

/-- A store: its directory, and the paths of the sessions it has written. -/
structure SessionStore where
  directory : String := "sessions"
  index : List (String × String) := []
  deriving Repr

namespace SessionStore

def logger : String := componentLogger "session.store"

def suffix : String := ".json"

def ofPath (path : String) : SessionStore := { directory := FilePath.normalize path }

/-- An id names a file directly below the directory: it is not blank and has no separator. -/
def checkId (id : String) : Except Failure Unit :=
  if Text.isAllBlank id then .error (.value "session_id cannot be empty")
  else if id.toList.any (fun c => c == '/' || c == '\\') || id == "." || id == ".." then
    .error (.value ("Invalid session_id: " ++ Text.quoted id))
  else .ok ()

def file (store : SessionStore) (id : String) : String :=
  FilePath.child store.directory (id ++ suffix)

def temporary (store : SessionStore) (id : String) : String :=
  FilePath.child store.directory (id ++ ".tmp")

def pathOf (store : SessionStore) (id : String) : String :=
  ((store.index.find? (·.1 == id)).map (·.2)).getD (store.file id)

def remember (store : SessionStore) (id path : String) : SessionStore :=
  if store.index.any (·.1 == id) then
    { store with index := store.index.map fun (i, p) => if i == id then (i, path) else (i, p) }
  else { store with index := store.index ++ [(id, path)] }

def forget (store : SessionStore) (id : String) : SessionStore :=
  { store with index := store.index.filter (·.1 != id) }

end SessionStore

namespace Session

/-- A store, the files it works on, and its log. -/
structure Desk where
  store : SessionStore
  files : FileTree
  log : List LogRecord := []

/-- An operation on a store. What it has done to the files before it fails stays done. -/
abbrev Access := ExceptT Failure (StateM Desk)

variable {α : Type}

def settle (outcome : Except Failure α) : Access α := ExceptT.mk (pure outcome)

def inspect (look : FileTree → Except Failure α) : Access α := do
  settle (look (← get).files)

def change (edit : FileTree → Except Failure FileTree) : Access Unit := do
  let files ← inspect edit
  modify fun desk => { desk with files }

def makeDirectory : Access Unit := do
  let desk ← get
  let (files, outcome) := desk.files.makeDirectories desk.store.directory
  set { desk with files }
  settle outcome

def forget (id : String) : Access Unit :=
  modify fun desk => { desk with store := desk.store.forget id }

def report (message : String) (extra : Record) : Access Unit :=
  modify fun desk =>
    { desk with log := desk.log ++ [.info SessionStore.logger message extra] }

def pathOf (id : String) : Access String := do
  settle (SessionStore.checkId id)
  return (← get).store.pathOf id

/-- Writes a text to a file by way of a temporary one, which is removed if anything fails, also when
there is no text to write. -/
def writeWhole (temporary file : String) (text : Except Failure String) : Access Unit := do
  let written : Access Unit := do
    let text ← settle text
    change (·.write temporary text)
    change (·.rename temporary file)
  match ← (ExceptT.lift written.run : Access (Except Failure Unit)) with
  | .ok () => return
  | .error failure =>
      if ← inspect (·.exists? temporary) then change (·.unlink temporary)
      throw failure

/-- Saves a state under an id; the result is the path of its file. -/
def save (id : String) (state : Value) : Access String := do
  settle (SessionStore.checkId id)
  let state ← settle (SessionState.ofValue state)
  let store := (← get).store
  makeDirectory
  writeWhole (store.temporary id) (store.file id) state.text
  modify fun desk => { desk with store := desk.store.remember id (store.file id) }
  report "Session saved" [("session_id", .text id), ("cookies", .ofNat state.cookies.length)]
  return store.file id

def load (id : String) : Access SessionState := do
  let path ← pathOf id
  if ← inspect (·.exists? path) then settle (SessionState.ofText (← inspect (·.read path)))
  else
    forget id
    throw (.sessionNotFound id)

def holds (id : String) : Access Bool := do
  let path ← pathOf id
  if ← inspect (·.exists? path) then return true
  else
    forget id
    return false

/-- Removes a session; false when there was none. -/
def delete (id : String) : Access Bool := do
  let path ← pathOf id
  forget id
  if ← inspect (·.exists? path) then
    change (·.unlink path)
    report "Session deleted" [("session_id", .text id)]
    return true
  else return false

/-- The ids of all session files in the directory, in the order of their names. -/
def list : Access (List String) := do
  let directory := (← get).store.directory
  if ← inspect (·.exists? directory) then
    let names := (← inspect (·.survey directory)).filterMap fun (name, entry) =>
      if entry matches .file _ then
        (name.dropSuffix? SessionStore.suffix).map (·.toString)
      else none
    return names.mergeSort fun a b => !(b < a)
  else return []

/-- What a host passes as the source of a state has to be a mapping, unless it is a browser. -/
def stateOf (source : Value) : Except Failure Value :=
  match source with
  | .map entries => .ok (.map entries)
  | source => .error <| .raise .attribute
      ("'" ++ source.typeName ++ "' object has no attribute 'storage_state'")

end Session

end WebHarvest
