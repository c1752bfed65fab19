import WebHarvest.Files.Tree
import WebHarvest.Proofs.Files.Path
import WebHarvest.Proofs.Outcome

/-!
# Ways through a file tree

What is found at a place after an entry has been put or dropped, where the path of an entry of a
directory leads, and what making a directory can do: one that is there is left alone, and below one
that is absent there is nothing.
-/

set_option autoImplicit false

namespace WebHarvest.FileTree

variable {tree : FileTree} {place : List String} {entry : FileEntry}

section Entries

theorem lookup_eq_find? {place : List String} (deep : place ≠ []) (tree : FileTree) :
    tree.entry? place = (tree.entries.find? (·.1 == place)).map (·.2) := by
  cases place with
  | nil => exact absurd rfl deep
  | cons step rest => rfl

theorem find?_replace (entries : List (List String × FileEntry)) (place : List String)
    (entry : FileEntry) (other : List String) :
    (entries.map fun (p, e) => if p == place then (p, entry) else (p, e)).find? (·.1 == other) =
      if other = place then (entries.find? (·.1 == place)).map fun (p, _) => (p, entry)
      else entries.find? (·.1 == other) := by
  induction entries with
  | nil => simp
  | cons first rest ih =>
      obtain ⟨p, e⟩ := first
      rw [List.map_cons, List.find?_cons, List.find?_cons, List.find?_cons, ih]
      by_cases here : p = place
      · by_cases asked : other = place
        · simp [here, asked]
        · have apart : (place == other) = false := by simpa using fun same => asked same.symm
          simp [here, asked, apart]
      · have keep : (p == place) = false := by simpa using here
        by_cases asked : other = place
        · simp [keep, asked]
        · simp [keep, asked]

theorem lookup_put (deep : place ≠ []) (other : List String) :
    FileTree.entry? (tree.put place entry) other = if other = place then some entry
      else tree.entry? other := by
  by_cases top : other = []
  · subst top
    rw [if_neg (Ne.symm deep)]
    rfl
  · rw [lookup_eq_find? top, lookup_eq_find? top]
    unfold put
    cases known : tree.entry? place with
    | none =>
        rw [lookup_eq_find? deep, Option.map_eq_none_iff] at known
        simp only [Option.isSome_none, Bool.false_eq_true, if_false, List.find?_append]
        by_cases asked : other = place
        · simp [asked, known]
        · have apart : (place == other) = false := by simpa using fun same => asked same.symm
          simp [asked, apart]
    | some old =>
        rw [lookup_eq_find? deep, Option.map_eq_some_iff] at known
        obtain ⟨found, known, -⟩ := known
        simp only [Option.isSome_some, if_true, find?_replace]
        by_cases asked : other = place
        · simp [asked, known]
        · simp [asked]

theorem lookup_drop (deep : place ≠ []) (other : List String) :
    FileTree.entry? (tree.drop place) other =
      if other = place then none else tree.entry? other := by
  by_cases top : other = []
  · subst top
    rw [if_neg (Ne.symm deep)]
    rfl
  · rw [lookup_eq_find? top, lookup_eq_find? top]
    unfold drop
    by_cases asked : other = place
    · rw [if_pos asked, Option.map_eq_none_iff, List.find?_eq_none]
      intro found member
      obtain ⟨-, kept⟩ := List.mem_filter.mp member
      simpa [asked] using kept
    · rw [if_neg asked]
      congr 1
      rw [List.find?_filter]
      congr 1
      funext found
      by_cases here : found.1 = other
      · simp [here, asked]
      · simp [here]

theorem deep_of_absent (absent : tree.entry? place = none) : place ≠ [] := by
  rintro rfl
  cases absent

theorem directory_kept_put_directory (deep : place ≠ []) (p : List String)
    (isDirectory : tree.entry? p = some .directory) :
    FileTree.entry? (tree.put place .directory) p = some .directory := by
  rw [lookup_put deep]
  split
  · rfl
  · exact isDirectory

theorem directory_kept_drop (notDirectory : tree.entry? place ≠ some .directory) (deep : place ≠ [])
    (p : List String) (isDirectory : tree.entry? p = some .directory) :
    FileTree.entry? (tree.drop place) p = some .directory := by
  rw [lookup_drop deep, if_neg, isDirectory]
  rintro rfl
  exact notDirectory isDirectory

@[simp] theorem root_put : (tree.put place entry).root = tree.root := by
  unfold put
  split <;> rfl

@[simp] theorem root_drop : (tree.drop place).root = tree.root := rfl

end Entries

section Ways

theorem walk_append (reached front back : List String) :
    tree.walk reached (front ++ back) =
      (tree.walk reached front).bind fun middle => tree.walk middle back := by
  induction front generalizing reached with
  | nil => rfl
  | cons step rest ih =>
      rw [List.cons_append, walk, walk]
      cases tree.entry? reached with
      | none => rfl
      | some entry =>
          cases entry with
          | file text => rfl
          | directory =>
              dsimp only
              split
              · exact ih _
              · split
                · rfl
                · exact ih _

/-- A way that leads somewhere still does when all directories stay. -/
theorem walk_of_directories {other : FileTree}
    (kept : ∀ p, tree.entry? p = some .directory → other.entry? p = some .directory)
    {reached steps : List String} (walked : tree.walk reached steps = .ok place) :
    other.walk reached steps = .ok place := by
  induction steps generalizing reached with
  | nil => exact walked
  | cons step rest ih =>
      rw [walk] at walked ⊢
      cases here : tree.entry? reached with
      | none =>
          rw [here] at walked
          cases walked
      | some entry =>
          cases entry with
          | file text =>
              rw [here] at walked
              cases walked
          | directory =>
              rw [here] at walked
              rw [kept reached here]
              dsimp only at walked ⊢
              split
              · rename_i above
                rw [if_pos above] at walked
                exact ih walked
              · rename_i below
                rw [if_neg below] at walked
                split
                · rename_i long
                  rw [if_pos long] at walked
                  cases walked
                · rename_i short
                  rw [if_neg short] at walked
                  exact ih walked

/-- The paths of a directory lead below the root: absolute ones begin as the root does, and relative
ones start at the root of all paths. -/
def Covers (tree : FileTree) (directory : String) : Prop :=
  (FilePath.anchor directory ≠ "" ∨ directory.startsWith tree.root = true) ∧
      FilePath.steps tree.root <+: FilePath.steps directory ∨
    FilePath.anchor directory = "" ∧ FilePath.anchor tree.root ≠ ""

theorem Covers.of_root {other : FileTree} {directory : String} (covers : tree.Covers directory)
    (same : other.root = tree.root) : other.Covers directory := by
  unfold Covers at covers ⊢
  rw [same]
  exact covers

theorem stepsTo_of_absolute {path : String}
    (absolute : FilePath.anchor path ≠ "" ∨ path.startsWith tree.root = true)
    (inside : FilePath.steps tree.root <+: FilePath.steps path) :
    tree.stepsTo path = (FilePath.steps path).drop (FilePath.steps tree.root).length := by
  have begins : (FilePath.anchor path != "" || path.startsWith tree.root) = true := by
    simpa using absolute
  have prefixes : (FilePath.steps tree.root).isPrefixOf (FilePath.steps path) = true :=
    List.isPrefixOf_iff_prefix.mpr inside
  simp only [stepsTo, begins, prefixes, if_true]

theorem stepsTo_of_relative {path : String} (relative : FilePath.anchor path = "")
    (absoluteRoot : FilePath.anchor tree.root ≠ "") :
    tree.stepsTo path = FilePath.steps path := by
  have apart : path.startsWith tree.root = false := by
    rw [← Bool.not_eq_true, String.startsWith_string_iff]
    rintro ⟨rest, same⟩
    have plain := FilePath.anchor_eq_empty_iff.mp relative
    have slash : tree.root.toList.head? = some '/' :=
      Decidable.not_not.mp fun none => absoluteRoot (FilePath.anchor_eq_empty_iff.mpr none)
    rw [← same, List.head?_append, slash] at plain
    exact plain rfl
  simp [stepsTo, relative, apart]

theorem stepsTo_child {directory name : String} (covers : tree.Covers directory)
    (nonempty : directory ≠ "") (isName : FilePath.IsName name) :
    tree.stepsTo (FilePath.child directory name) = tree.stepsTo directory ++ [name] := by
  have stepsChild := FilePath.steps_child directory isName
  have anchorChild := FilePath.anchor_child nonempty isName
  rcases covers with ⟨absolute, covers⟩ | ⟨relative, absoluteRoot⟩
  · have inside : FilePath.steps tree.root <+: FilePath.steps (FilePath.child directory name) := by
      rw [stepsChild]
      exact covers.trans (List.prefix_append _ _)
    rw [stepsTo_of_absolute absolute covers]
    by_cases here : directory = "."
    · -- the path of the entry is its name alone, and the root has no steps
      subst here
      have noSteps : FilePath.steps tree.root = [] := List.prefix_nil.mp covers
      have all : tree.stepsTo (FilePath.child "." name) =
          FilePath.steps (FilePath.child "." name) := by
        simp [stepsTo, noSteps]
      rw [all, stepsChild, noSteps]
      rfl
    · have absoluteChild : FilePath.anchor (FilePath.child directory name) ≠ "" ∨
          (FilePath.child directory name).startsWith tree.root = true := by
        rcases absolute with anchored | begins
        · exact Or.inl fun none => anchored (anchorChild.mp none)
        · refine Or.inr ?_
          rw [String.startsWith_string_iff] at begins ⊢
          refine begins.trans ?_
          rcases FilePath.child_cases directory name with ⟨same, -⟩ | ⟨_, _, same⟩ | ⟨_, _, same⟩
          · exact absurd same here
          · rw [same, String.toList_append]
            exact List.prefix_append _ _
          · rw [same, String.append_assoc, String.toList_append]
            exact List.prefix_append _ _
      rw [stepsTo_of_absolute absoluteChild inside, stepsChild,
        List.drop_append_of_le_length covers.length_le]
  · rw [stepsTo_of_relative relative absoluteRoot,
      stepsTo_of_relative (anchorChild.mpr relative) absoluteRoot, stepsChild]

/-- A name that the file system takes below a directory. -/
structure Fits (directory name : String) : Prop where
  isName : FilePath.IsName name
  nameShort : name.utf8ByteSize ≤ nameLimit
  pathShort : (FilePath.child directory name).utf8ByteSize < pathLimit

theorem locate_eq_ok_iff {path : String} :
    tree.locate path = .ok place ↔
      ¬ pathLimit ≤ path.utf8ByteSize ∧ tree.walk [] (tree.stepsTo path) = .ok place := by
  unfold locate
  by_cases long : pathLimit ≤ path.utf8ByteSize
  · rw [if_pos long]
    constructor
    · intro located
      cases located
    · rintro ⟨short, -⟩
      exact absurd long short
  · rw [if_neg long]
    exact (and_iff_right long).symm

/-- The path of an entry goes on from where the directory is. -/
theorem locate_child_eq_walk {directory name : String} (covers : tree.Covers directory)
    (nonempty : directory ≠ "") (isName : FilePath.IsName name)
    (short : (FilePath.child directory name).utf8ByteSize < pathLimit)
    (located : tree.locate directory = .ok place) :
    tree.locate (FilePath.child directory name) = tree.walk place [name] := by
  rw [locate, if_neg (Nat.not_le.mpr short), stepsTo_child covers nonempty isName, walk_append,
    (locate_eq_ok_iff.mp located).2]
  rfl

theorem locate_child {directory name : String} (covers : tree.Covers directory)
    (nonempty : directory ≠ "") (fits : Fits directory name)
    (located : tree.locate directory = .ok place)
    (isDirectory : tree.entry? place = some .directory) :
    tree.locate (FilePath.child directory name) = .ok (place ++ [name]) := by
  have notAbove : (name == "..") = false := by simpa using fits.isName.notAbove
  rw [locate_child_eq_walk covers nonempty fits.isName fits.pathShort located]
  simp [walk, isDirectory, notAbove, Nat.not_lt.mpr fits.nameShort]

theorem locate_of_directories {other : FileTree} (root : other.root = tree.root)
    (kept : ∀ p, tree.entry? p = some .directory → other.entry? p = some .directory)
    {path : String} (located : tree.locate path = .ok place) : other.locate path = .ok place := by
  have sameSteps : other.stepsTo path = tree.stepsTo path := by
    unfold stepsTo
    rw [root]
  obtain ⟨short, walked⟩ := locate_eq_ok_iff.mp located
  refine locate_eq_ok_iff.mpr ⟨short, ?_⟩
  rw [sameSteps]
  exact walk_of_directories kept walked

theorem find_of_located {path : String} (located : tree.locate path = .ok place) :
    tree.find path = match tree.entry? place with
      | some entry => .ok (place, entry)
      | none => .error .notFound := by
  unfold find
  rw [located]
  rfl

theorem makeDirectory_of_located {path : String} (located : tree.locate path = .ok place) :
    tree.makeDirectory path = match tree.entry? place with
      | some _ => .error .alreadyExists
      | none => .ok (tree.put place .directory) := by
  unfold makeDirectory
  rw [located]
  rfl

theorem find_of_not_located {path : String} {fault : FileFault}
    (located : tree.locate path = .error fault) : tree.find path = .error fault := by
  unfold find
  rw [located]
  rfl

theorem find_eq_ok_iff {path : String} :
    tree.find path = .ok (place, entry) ↔
      tree.locate path = .ok place ∧ tree.entry? place = some entry := by
  constructor
  · intro found
    cases located : tree.locate path with
    | error fault =>
        rw [find_of_not_located located] at found
        cases found
    | ok there =>
        rw [find_of_located located] at found
        cases held : tree.entry? there with
        | none =>
            rw [held] at found
            cases found
        | some known =>
            rw [held] at found
            cases found
            exact ⟨rfl, held⟩
  · rintro ⟨located, held⟩
    rw [find_of_located located, held]

theorem makeDirectory_of_not_located {path : String} {fault : FileFault}
    (located : tree.locate path = .error fault) : tree.makeDirectory path = .error fault := by
  unfold makeDirectory
  rw [located]
  rfl

end Ways

section Names

theorem isNameable_append (front back : String) :
    isNameable (front ++ back) = (isNameable front && isNameable back) := by
  simp [isNameable, String.toList_append]

theorem isNameable_child (directory name : String) :
    isNameable (FilePath.child directory name) = (isNameable directory && isNameable name) := by
  rcases FilePath.child_cases directory name with ⟨rfl, same⟩ | ⟨_, _, same⟩ | ⟨_, _, same⟩
  · rw [same]
    rfl
  · rw [same, isNameable_append]
  · have slash : isNameable "/" = true := by decide
    rw [same, isNameable_append, isNameable_append, slash, Bool.and_true]

theorem write_of_unnameable {path : String} (unnameable : isNameable path = false)
    (text : String) : tree.write path text = .error (.value "embedded null byte") := by
  unfold write target checkNameable
  rw [unnameable]
  rfl

theorem exists?_of_unnameable {path : String} (unnameable : isNameable path = false) :
    tree.exists? path = .ok false := by
  unfold exists?
  rw [unnameable]
  rfl

theorem exists?_of_located {path : String} (nameable : isNameable path = true)
    (located : tree.locate path = .ok place) (here : tree.entry? place = some entry) :
    tree.exists? path = .ok true := by
  unfold exists?
  rw [nameable, find_of_located located, here]
  rfl

end Names

section Making

variable {directory : String}

theorem makeDirectories_eq_ensureDirectory (normal : FilePath.normalize directory = directory)
    (nameable : isNameable directory = true)
    (known : tree.makeDirectory directory ≠ .error .notFound) :
    tree.makeDirectories directory = tree.ensureDirectory directory := by
  unfold makeDirectories checkNameable
  rw [if_pos nameable]
  dsimp only
  have spelled : FilePath.ofSteps (FilePath.anchor directory)
      (FilePath.steps directory).reverse.reverse = directory := by
    rw [List.reverse_reverse]
    exact normal
  cases above : (FilePath.steps directory).reverse with
  | nil =>
      rw [above] at spelled
      rw [makeAlong]
      exact congrArg _ spelled
  | cons step rest =>
      rw [above] at spelled
      rw [makeAlong, spelled]
      split
      · rename_i missing
        exact absurd missing known
      · rfl

theorem makeDirectory_eq_ok_iff {made : FileTree} {path : String} :
    tree.makeDirectory path = .ok made ↔ ∃ place, tree.locate path = .ok place ∧
      tree.entry? place = none ∧ made = tree.put place .directory := by
  constructor
  · intro done
    unfold makeDirectory at done
    obtain ⟨place, located, done⟩ := Outcome.bind_ok_iff.mp done
    cases held : tree.entry? place with
    | some entry =>
        rw [held] at done
        cases done
    | none =>
        rw [held] at done
        cases done
        exact ⟨place, located, held, rfl⟩
  · rintro ⟨place, located, absent, rfl⟩
    rw [makeDirectory_of_located located, absent]

theorem makeDirectory_root {made : FileTree} {path : String}
    (done : tree.makeDirectory path = .ok made) : made.root = tree.root := by
  obtain ⟨place, -, -, rfl⟩ := makeDirectory_eq_ok_iff.mp done
  exact root_put

theorem ensureDirectory_root (tree : FileTree) (path : String) :
    (tree.ensureDirectory path).1.root = tree.root := by
  unfold ensureDirectory
  split
  · rename_i done
    exact makeDirectory_root done
  · rfl
  · rfl

theorem makeAlong_root (anchor : String) (steps : List String) (tree : FileTree) :
    (makeAlong anchor steps tree).1.root = tree.root := by
  induction steps with
  | nil => exact ensureDirectory_root tree _
  | cons step above ih =>
      rw [makeAlong]
      split
      · split
        · rename_i middle same
          rw [same] at ih
          rw [ensureDirectory_root]
          exact ih
        · rename_i middle failure same
          rw [same] at ih
          exact ih
      · exact ensureDirectory_root tree _

theorem makeDirectories_root (tree : FileTree) (directory : String) :
    (tree.makeDirectories directory).1.root = tree.root := by
  unfold makeDirectories
  split
  · rfl
  · exact makeAlong_root _ _ tree

theorem nameable_of_made {made : FileTree}
    (done : tree.makeDirectories directory = (made, .ok ())) : isNameable directory = true := by
  unfold makeDirectories checkNameable at done
  split at done
  · rename_i failure refused
    cases done
  · rename_i accepted
    cases nameable : isNameable directory with
    | true => rfl
    | false =>
        rw [nameable] at accepted
        cases accepted

theorem makeDirectories_of_present (normal : FilePath.normalize directory = directory)
    (nameable : isNameable directory = true) (located : tree.locate directory = .ok place)
    (isDirectory : tree.entry? place = some .directory) :
    tree.makeDirectories directory = (tree, .ok ()) := by
  have present : tree.makeDirectory directory = .error .alreadyExists := by
    rw [makeDirectory_of_located located, isDirectory]
  have found : tree.find directory = .ok (place, .directory) := by
    rw [find_of_located located, isDirectory]
  have known : tree.makeDirectory directory ≠ .error .notFound := by
    rw [present]
    exact fun same => by cases same
  rw [makeDirectories_eq_ensureDirectory normal nameable known, ensureDirectory, present, found]

/-- Making a directory only succeeds in the place of something if that is a directory. -/
theorem find_of_made {made : FileTree} {fault : FileFault}
    (normal : FilePath.normalize directory = directory)
    (done : tree.makeDirectories directory = (made, .ok ()))
    (refused : tree.makeDirectory directory = .error fault) (way : fault ≠ .notFound) :
    ∃ place, tree.find directory = .ok (place, .directory) := by
  have known : tree.makeDirectory directory ≠ .error .notFound := by
    rw [refused]
    intro same
    cases same
    exact way rfl
  rw [makeDirectories_eq_ensureDirectory normal (nameable_of_made done) known, ensureDirectory,
    refused] at done
  split at done
  · rename_i impossible
    cases impossible
  · rename_i place _ found
    exact ⟨place, found⟩
  · cases done

theorem exists?_of_not_found {fault : FileFault} (nameable : isNameable directory = true)
    (missing : tree.find directory = .error fault) (short : fault ≠ .nameTooLong) :
    tree.exists? directory = .ok false := by
  unfold exists?
  rw [nameable, missing]
  cases fault with
  | nameTooLong => exact absurd rfl short
  | _ => rfl

theorem present_or_absent_of_made {made : FileTree}
    (normal : FilePath.normalize directory = directory)
    (done : tree.makeDirectories directory = (made, .ok ())) :
    (∃ place, tree.locate directory = .ok place ∧ tree.entry? place = some .directory) ∨
      tree.exists? directory = .ok false := by
  have nameable := nameable_of_made done
  cases located : tree.locate directory with
  | error fault =>
      have missing := find_of_not_located located
      refine Or.inr (exists?_of_not_found nameable missing ?_)
      rintro rfl
      obtain ⟨place, found⟩ :=
        find_of_made normal done (makeDirectory_of_not_located located) (by decide)
      rw [missing] at found
      cases found
  | ok place =>
      cases here : tree.entry? place with
      | none =>
          refine Or.inr (exists?_of_not_found nameable ?_ (by decide : FileFault.notFound ≠ _))
          rw [find_of_located located, here]
      | some entry =>
          have refused : tree.makeDirectory directory = .error .alreadyExists := by
            rw [makeDirectory_of_located located, here]
          obtain ⟨other, found⟩ := find_of_made normal done refused (by decide)
          rw [find_of_located located, here] at found
          cases found
          exact Or.inl ⟨place, rfl, here⟩

theorem exists?_child_of_absent {name : String} (covers : tree.Covers directory)
    (nonempty : directory ≠ "") (fits : Fits directory name)
    (nameable : isNameable directory = true) (absent : tree.exists? directory = .ok false) :
    tree.exists? (FilePath.child directory name) = .ok false := by
  have short := Nat.not_le.mpr fits.pathShort
  unfold exists? at absent ⊢
  rw [nameable] at absent
  simp only [Bool.not_true, Bool.false_eq_true, if_false] at absent
  split
  · rfl
  · have step := stepsTo_child covers nonempty fits.isName
    have directoryShort : ¬ pathLimit ≤ directory.utf8ByteSize := by
      intro long
      have located : tree.locate directory = .error .nameTooLong := by
        rw [locate, if_pos long]
      rw [find_of_not_located located] at absent
      cases absent
    cases located : tree.locate directory with
    | error fault =>
        rw [find_of_not_located located] at absent
        rw [locate, if_neg directoryShort] at located
        have childLocated : tree.locate (FilePath.child directory name) = .error fault := by
          rw [locate, if_neg short, step, walk_append, located]
          rfl
        rw [find_of_not_located childLocated]
        cases fault with
        | nameTooLong => cases absent
        | _ => rfl
    | ok place =>
        cases here : tree.entry? place with
        | none =>
            rw [locate, if_neg directoryShort] at located
            have childLocated :
                tree.locate (FilePath.child directory name) = .error .notFound := by
              rw [locate, if_neg short, step, walk_append, located]
              simp [Except.bind, walk, here]
            rw [find_of_not_located childLocated]
        | some entry =>
            have found : tree.find directory = .ok (place, entry) := by
              rw [find_of_located located, here]
            rw [found] at absent
            cases absent

end Making

end WebHarvest.FileTree
