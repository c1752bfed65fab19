import WebHarvest.Failure
import WebHarvest.Files.Path

/-!
# File trees

The files that sessions, cookies and ledgers are kept in: a tree of directories and text files below
one root. Relative paths start at the root. The operations fail as a file system does: a missing
step on the way, a file where a directory is needed, a directory where a file is needed, a name that
is too long.
-/

set_option autoImplicit false

namespace WebHarvest

inductive FileEntry where
  | directory
  | file (text : String)
  deriving DecidableEq, Repr

/-- Directories and files below a root. `root` is the path text of the root itself; an entry is
found under the steps that lead to it from there. -/
structure FileTree where
  root : String := "/"
  entries : List (List String × FileEntry) := []
  deriving Repr

namespace FileTree

def nameLimit : Nat := 255

def pathLimit : Nat := 4096

/-- The steps from the root to a path. A path that does not lead below the root gets a step that
nothing has. -/
def stepsTo (tree : FileTree) (path : String) : List String :=
  let steps := FilePath.steps path
  let rootSteps := FilePath.steps tree.root
  if FilePath.anchor path != "" || path.startsWith tree.root then
    if rootSteps.isPrefixOf steps then steps.drop rootSteps.length else "/" :: steps
  else steps

/-- The entry at a place, without looking at the way to it. -/
def entry? (tree : FileTree) : List String → Option FileEntry
  | [] => some .directory
  | place => (tree.entries.find? (·.1 == place)).map (·.2)

/-- Goes on from a place, one step after another. Every place that is left has to be a directory,
also where the next step leads back to its parent; the place that is reached may hold nothing. -/
def walk (tree : FileTree) (reached : List String) :
    List String → Except FileFault (List String)
  | [] => .ok reached
  | step :: rest =>
      match tree.entry? reached with
      | none => .error .notFound
      | some (.file _) => .error .notADirectory
      | some .directory =>
          if step == ".." then walk tree reached.dropLast rest
          else if nameLimit < step.utf8ByteSize then .error .nameTooLong
          else walk tree (reached ++ [step]) rest

def locate (tree : FileTree) (path : String) : Except FileFault (List String) :=
  if pathLimit ≤ path.utf8ByteSize then .error .nameTooLong
  else tree.walk [] (tree.stepsTo path)

def find (tree : FileTree) (path : String) : Except FileFault (List String × FileEntry) := do
  let place ← tree.locate path
  match tree.entry? place with
  | some entry => return (place, entry)
  | none => throw .notFound

def put (tree : FileTree) (place : List String) (entry : FileEntry) : FileTree :=
  if (tree.entry? place).isSome then
    { tree with
      entries := tree.entries.map fun (p, e) => if p == place then (p, entry) else (p, e) }
  else { tree with entries := tree.entries ++ [(place, entry)] }

def drop (tree : FileTree) (place : List String) : FileTree :=
  { tree with entries := tree.entries.filter (·.1 != place) }

/-- Names with a null character cannot be asked for. -/
def isNameable (path : String) : Bool := !path.toList.contains '\x00'

def refused {α : Type} (path : String) (fault : FileFault) : Except Failure α :=
  .error (.file fault path)

/-- Refuses a path that no file system can name. -/
def checkNameable (path : String) : Except Failure Unit :=
  if isNameable path then .ok () else .error (.value "embedded null byte")

/-- Whether a path leads to an entry. A name that is too long is an error, a missing step is not. -/
def exists? (tree : FileTree) (path : String) : Except Failure Bool :=
  if !isNameable path then .ok false
  else
    match tree.find path with
    | .ok _ => .ok true
    | .error .nameTooLong => refused path .nameTooLong
    | .error _ => .ok false

def source (tree : FileTree) (path : String) : Except Failure (List String × String) := do
  checkNameable path
  match tree.find path with
  | .ok (place, .file text) => .ok (place, text)
  | .ok (_, .directory) => refused path .isADirectory
  | .error fault => refused path fault

def read (tree : FileTree) (path : String) : Except Failure String := do
  return (← tree.source path).2

def target (tree : FileTree) (path : String) : Except Failure (List String × String) := do
  checkNameable path
  match tree.locate path with
  | .error fault => refused path fault
  | .ok place =>
      match tree.entry? place with
      | none => .ok (place, "")
      | some (.file text) => .ok (place, text)
      | some .directory => refused path .isADirectory

def write (tree : FileTree) (path text : String) : Except Failure FileTree := do
  let (place, _) ← tree.target path
  return tree.put place (.file text)

def append (tree : FileTree) (path text : String) : Except Failure FileTree := do
  let (place, before) ← tree.target path
  return tree.put place (.file (before ++ text))

def unlink (tree : FileTree) (path : String) : Except Failure FileTree := do
  let (place, _) ← tree.source path
  return tree.drop place

def rename (tree : FileTree) (source path : String) : Except Failure FileTree := do
  let (old, text) ← tree.source source
  let (place, _) ← tree.target path
  return (tree.drop old).put place (.file text)

/-- Makes a directory, whose own directory has to be there; nothing may be there in its place. -/
def makeDirectory (tree : FileTree) (path : String) : Except FileFault FileTree := do
  let place ← tree.locate path
  match tree.entry? place with
  | some _ => throw .alreadyExists
  | none => return tree.put place .directory

/-- Makes a directory, whose own directory has to be there; one that exists is left alone. -/
def ensureDirectory (tree : FileTree) (path : String) : FileTree × Except Failure Unit :=
  match tree.makeDirectory path, tree.find path with
  | .ok tree, _ => (tree, .ok ())
  | .error _, .ok (_, .directory) => (tree, .ok ())
  | .error fault, _ => (tree, refused path fault)

/-- Makes the directory that some steps lead to, given the last step first. When the way to it is
not there, the directory above is made first in the same way. -/
def makeAlong (anchor : String) : List String → FileTree → FileTree × Except Failure Unit
  | [], tree => tree.ensureDirectory (FilePath.ofSteps anchor [])
  | step :: above, tree =>
      let path := FilePath.ofSteps anchor (step :: above).reverse
      match tree.makeDirectory path with
      | .error .notFound =>
          match makeAlong anchor above tree with
          | (tree, .ok ()) => tree.ensureDirectory path
          | (tree, .error failure) => (tree, .error failure)
      | _ => tree.ensureDirectory path

/-- Makes a directory and those above it; those that exist are left alone. When a step fails, the
directories that have been made before it stay. -/
def makeDirectories (tree : FileTree) (path : String) : FileTree × Except Failure Unit :=
  match checkNameable path with
  | .error failure => (tree, .error failure)
  | .ok () => makeAlong (FilePath.anchor path) (FilePath.steps path).reverse tree

def children (tree : FileTree) (path : String) : Except Failure (List (String × FileEntry)) :=
  match tree.find path with
  | .ok (place, .directory) => .ok <| tree.entries.filterMap fun (p, entry) =>
      if p.dropLast == place then p.getLast?.map fun name => (name, entry) else none
  | .ok (_, .file _) => refused path .notADirectory
  | .error fault => refused path fault

/-- The entries of a directory, each of which is looked at by its own path. -/
def survey (tree : FileTree) (path : String) : Except Failure (List (String × FileEntry)) := do
  let children ← tree.children path
  match children.find? fun (name, _) => pathLimit ≤ (FilePath.child path name).utf8ByteSize with
  | some (name, _) => refused (FilePath.child path name) .nameTooLong
  | none => return children

/-- All entries as path texts below the root, sorted; directories end in a slash. -/
def listing (tree : FileTree) : List String :=
  let texts := tree.entries.map fun (place, entry) =>
    "/".intercalate place ++ (if entry matches .directory then "/" else "")
  texts.mergeSort fun a b => !(b < a)

end FileTree

end WebHarvest
