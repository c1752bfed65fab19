import WebHarvest.Proofs.Files.Frame

/-!
# Deeds

What can be done with files by their paths, and plans of such deeds, each of which may depend on the
replies to those before. A plan has to do with the files only through its deeds: whatever every
deed that it may take keeps, the plan keeps.
-/

set_option autoImplicit false

namespace WebHarvest

/-- What is done with files by their paths. -/
inductive FileDeed where
  /-- Asks whether a path leads to an entry. -/
  | asks (path : String)
  | reads (path : String)
  | writes (path text : String)
  | renames (source path : String)
  | removes (path : String)
  /-- Makes a directory and those above it. -/
  | makesDirectories (path : String)

namespace FileDeed

/-- What is replied to a deed that is not refused. -/
def Reply : FileDeed → Type
  | asks _ => Bool
  | reads _ => String
  | writes .. => Unit
  | renames .. => Unit
  | removes _ => Unit
  | makesDirectories _ => Unit

/-- A change that is refused leaves the files as they are. -/
def changed (files : FileTree) : Except Failure FileTree → Except Failure Unit × FileTree
  | .ok after => (.ok (), after)
  | .error failure => (.error failure, files)

def perform (files : FileTree) : (deed : FileDeed) → Except Failure deed.Reply × FileTree
  | asks path => (files.exists? path, files)
  | reads path => (files.read path, files)
  | writes path text => changed files (files.write path text)
  | renames source path => changed files (files.rename source path)
  | removes path => changed files (files.unlink path)
  | makesDirectories path => (files.makeDirectories path).swap

/-- The paths that a deed is given. -/
def paths : FileDeed → List String
  | asks path => [path]
  | reads path => [path]
  | writes path _ => [path]
  | renames source path => [source, path]
  | removes path => [path]
  | makesDirectories path => [path]

end FileDeed

/-- Deeds one after another, each chosen by the replies to those before. -/
inductive FilePlan (α : Type) where
  | done (result : α)
  | next (deed : FileDeed) (rest : Except Failure deed.Reply → FilePlan α)

namespace FilePlan

variable {α β : Type}

def run (files : FileTree) : FilePlan α → α × FileTree
  | done result => (result, files)
  | next deed rest =>
      let (reply, after) := deed.perform files
      (rest reply).run after

def bind (next : α → FilePlan β) : FilePlan α → FilePlan β
  | done result => next result
  | .next deed rest => .next deed fun reply => (rest reply).bind next

theorem run_bind (plan : FilePlan α) (next : α → FilePlan β) (files : FileTree) :
    (plan.bind next).run files = (next (plan.run files).1).run (plan.run files).2 := by
  induction plan generalizing files with
  | done result => rfl
  | next deed rest ih => exact ih _ _

/-- A plan that takes none but certain deeds, whatever is replied to them. -/
inductive Within (allowed : FileDeed → Prop) : FilePlan α → Prop where
  | done {result : α} : Within allowed (.done result)
  | next {deed : FileDeed} {rest : Except Failure deed.Reply → FilePlan α} (may : allowed deed)
      (further : ∀ reply, (rest reply).Within allowed) : Within allowed (.next deed rest)

namespace Within

variable {allowed : FileDeed → Prop} {plan : FilePlan α}

theorem bind {next : α → FilePlan β} (within : plan.Within allowed)
    (further : ∀ result, (next result).Within allowed) : (plan.bind next).Within allowed := by
  induction within with
  | done => exact further _
  | next may _ ih => exact .next may ih

/-- What each allowed deed keeps is kept by the whole plan. -/
theorem keeps {invariant : FileTree → Prop}
    (kept : ∀ deed files, allowed deed → invariant files → invariant (deed.perform files).2)
    (within : plan.Within allowed) {files : FileTree} (begins : invariant files) :
    invariant (plan.run files).2 := by
  induction within generalizing files with
  | done => exact begins
  | next may _ ih => exact ih _ (kept _ files may begins)

end Within

end FilePlan

namespace FileTree

variable {tree after : FileTree} {directory own name : String} {front place : List String}

/-- Two trees with the same files of a name: at the same places, with the same texts. -/
def SameFiles (name : String) (tree after : FileTree) : Prop :=
  ∀ front text, after.entry? (front ++ [name]) = some (.file text) ↔
    tree.entry? (front ++ [name]) = some (.file text)

theorem SameFiles.refl (name : String) (tree : FileTree) : SameFiles name tree tree :=
  fun _ _ => Iff.rfl

theorem SameFiles.trans {middle : FileTree} (first : SameFiles name tree middle)
    (second : SameFiles name middle after) : SameFiles name tree after :=
  fun front text => (second front text).trans (first front text)

theorem Grows.sameFiles {fresh : List String → Prop} (grows : Grows tree after fresh)
    (name : String) : SameFiles name tree after :=
  fun _ _ => ⟨grows.file, grows.kept _ _⟩

section Elsewhere

variable (isName : FilePath.IsName own) (apart : own ≠ name)

include isName apart

/-- The path of an entry leads to no entry of another name. -/
theorem ne_of_located (deep : place ≠ [])
    (located : tree.locate (FilePath.child directory own) = .ok place) :
    front ++ [name] ≠ place := by
  rintro rfl
  have last := (getLast?_of_locate isName located).resolve_left deep
  rw [List.getLast?_concat] at last
  exact apart (Option.some.inj last).symm

theorem sameFiles_put {before : String} {entry : FileEntry}
    (reached : tree.target (FilePath.child directory own) = .ok (place, before)) :
    SameFiles name tree (tree.put place entry) := by
  obtain ⟨-, located, -⟩ := target_eq_ok_iff.mp reached
  have deep := deep_of_target reached
  intro front text
  rw [lookup_put deep, if_neg (ne_of_located isName apart deep located)]

theorem sameFiles_drop {before : String}
    (reached : tree.target (FilePath.child directory own) = .ok (place, before)) :
    SameFiles name tree (tree.drop place) := by
  obtain ⟨-, located, -⟩ := target_eq_ok_iff.mp reached
  have deep := deep_of_target reached
  intro front text
  rw [lookup_drop deep, if_neg (ne_of_located isName apart deep located)]

theorem sameFiles_write {text : String}
    (written : tree.write (FilePath.child directory own) text = .ok after) :
    SameFiles name tree after := by
  obtain ⟨⟨place, before⟩, reached, same⟩ := Outcome.bind_ok_iff.mp written
  cases same
  exact sameFiles_put isName apart reached

theorem sameFiles_unlink (removed : tree.unlink (FilePath.child directory own) = .ok after) :
    SameFiles name tree after := by
  obtain ⟨⟨place, before⟩, taken, same⟩ := Outcome.bind_ok_iff.mp removed
  cases same
  exact sameFiles_drop isName apart (target_of_source taken)

theorem sameFiles_rename {source : String} (sourceIsName : FilePath.IsName source)
    (sourceApart : source ≠ name)
    (renamed : tree.rename (FilePath.child directory source) (FilePath.child directory own) =
      .ok after) : SameFiles name tree after := by
  obtain ⟨⟨old, text⟩, taken, rest⟩ := Outcome.bind_ok_iff.mp renamed
  obtain ⟨⟨place, before⟩, reached, same⟩ := Outcome.bind_ok_iff.mp rest
  cases same
  obtain ⟨-, located, -⟩ := target_eq_ok_iff.mp reached
  have deep := deep_of_target reached
  refine (sameFiles_drop sourceIsName sourceApart (target_of_source taken)).trans ?_
  intro front content
  rw [lookup_put deep, if_neg (ne_of_located isName apart deep located)]

end Elsewhere

/-- Two paths under which no tree has one file. -/
structure Apart (path other : String) : Prop where
  ne : path ≠ other
  shared : ∀ (tree : FileTree) (place : List String) (text : String),
    tree.find path = .ok (place, .file text) → tree.find other ≠ .ok (place, .file text)

/-- Entries of different names are found apart. -/
theorem apart_child (directory : String) (isName : FilePath.IsName own)
    (otherIsName : FilePath.IsName name) (ne : own ≠ name) :
    Apart (FilePath.child directory own) (FilePath.child directory name) where
  ne := by
    obtain ⟨front, spelled⟩ := FilePath.child_eq_append directory
    rw [spelled, spelled]
    exact fun same => ne ((String.append_right_inj _).mp same)
  shared := by
    intro tree place text found foundOther
    obtain ⟨located, held⟩ := find_eq_ok_iff.mp found
    obtain ⟨locatedOther, -⟩ := find_eq_ok_iff.mp foundOther
    have deep : place ≠ [] := by
      rintro rfl
      cases held
    have last := (getLast?_of_locate isName located).resolve_left deep
    have lastOther := (getLast?_of_locate otherIsName locatedOther).resolve_left deep
    exact ne (Option.some.inj (last.symm.trans lastOther))

end FileTree

namespace FileDeed

variable {deed : FileDeed} {directory name : String} {files : FileTree}

/-- A deed with entries of a directory, none of them with a certain name; or directories are made. -/
inductive Spares (directory name : String) : FileDeed → Prop where
  | entries {deed : FileDeed} (apart : ∀ path ∈ deed.paths,
      ∃ own, FilePath.IsName own ∧ own ≠ name ∧ path = FilePath.child directory own) :
      Spares directory name deed
  | directories {path : String} : Spares directory name (.makesDirectories path)

theorem sameFiles_changed {outcome : Except Failure FileTree}
    (same : ∀ after, outcome = .ok after → FileTree.SameFiles name files after) :
    FileTree.SameFiles name files (changed files outcome).2 := by
  cases outcome with
  | ok after => exact same after rfl
  | error failure => exact .refl name files

/-- Whoever asks for the files of a name is told the same before and after a deed that has to do
with entries of other names. -/
theorem Spares.sameFiles (spares : deed.Spares directory name) (files : FileTree) :
    FileTree.SameFiles name files (deed.perform files).2 := by
  cases spares with
  | directories =>
      exact (FileTree.makeDirectories_grows files _).sameFiles name
  | entries apart =>
      cases deed with
      | asks path => exact .refl name files
      | reads path => exact .refl name files
      | writes path text =>
          obtain ⟨own, isName, other, rfl⟩ := apart path List.mem_cons_self
          exact sameFiles_changed fun _ => FileTree.sameFiles_write isName other
      | renames source path =>
          obtain ⟨old, oldIsName, oldOther, rfl⟩ := apart source List.mem_cons_self
          obtain ⟨own, isName, other, rfl⟩ :=
            apart path (List.mem_cons_of_mem _ List.mem_cons_self)
          exact sameFiles_changed fun _ =>
            FileTree.sameFiles_rename isName other oldIsName oldOther
      | removes path =>
          obtain ⟨own, isName, other, rfl⟩ := apart path List.mem_cons_self
          exact sameFiles_changed fun _ => FileTree.sameFiles_unlink isName other
      | makesDirectories path => exact (FileTree.makeDirectories_grows files _).sameFiles name

end FileDeed

end WebHarvest
