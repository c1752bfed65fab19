import Mathlib.Data.List.Induction
import WebHarvest.Proofs.Files.Append
import WebHarvest.Proofs.Files.Table

/-!
# What others see of new directories and of a lost file

Making a directory adds directories, and nothing is lost. Removing a file makes no other file go
away. So a path that leads to something else is answered as before. Only a path that could not be
followed because a directory was missing may be answered in a new way once the directory is there:
when it goes back to a parent, or has a name that is too long.
-/

set_option autoImplicit false

namespace WebHarvest.FileTree

variable {tree made other : FileTree} {place : List String} {path : String}

/-- Whoever asks for the path, and reads what is there, is told the same. -/
structure SameAt (path : String) (tree other : FileTree) : Prop where
  present : other.exists? path = tree.exists? path
  text : tree.exists? path = .ok true → other.read path = tree.read path

namespace SameAt

theorem refl (path : String) (tree : FileTree) : SameAt path tree tree := ⟨rfl, fun _ => rfl⟩

theorem trans (first : SameAt path tree made) (second : SameAt path made other) :
    SameAt path tree other where
  present := second.present.trans first.present
  text present := (second.text (first.present.trans present)).trans (first.text present)

end SameAt

section Growth

variable {fresh wider : List String → Prop}

/-- Everything is still there, and what is new are directories in certain places. -/
structure Grows (tree made : FileTree) (fresh : List String → Prop) : Prop where
  root : made.root = tree.root
  kept : ∀ place entry, tree.entry? place = some entry → made.entry? place = some entry
  introduced : ∀ place entry, made.entry? place = some entry → tree.entry? place = none →
    entry = .directory ∧ fresh place

namespace Grows

theorem refl (tree : FileTree) (fresh : List String → Prop) : Grows tree tree fresh where
  root := rfl
  kept _ _ held := held
  introduced place entry held absent := by
    rw [held] at absent
    cases absent

theorem trans (first : Grows tree made fresh) (second : Grows made other fresh) :
    Grows tree other fresh where
  root := second.root.trans first.root
  kept place entry held := second.kept place entry (first.kept place entry held)
  introduced place entry held absent := by
    cases middle : made.entry? place with
    | none => exact second.introduced place entry held middle
    | some old =>
        have same := (second.kept place old middle).symm.trans held
        obtain rfl := Option.some.inj same
        exact first.introduced place old middle absent

theorem weaken (grows : Grows tree made fresh) (wide : ∀ place, fresh place → wider place) :
    Grows tree made wider :=
  { grows with
    introduced := fun place entry held absent =>
      ⟨(grows.introduced place entry held absent).1,
        wide place (grows.introduced place entry held absent).2⟩ }

theorem stepsTo (grows : Grows tree made fresh) (path : String) :
    made.stepsTo path = tree.stepsTo path := by
  unfold FileTree.stepsTo
  rw [grows.root]

theorem locate (grows : Grows tree made fresh) (located : tree.locate path = .ok place) :
    made.locate path = .ok place :=
  locate_of_directories grows.root (fun p => grows.kept p .directory) located

theorem file (grows : Grows tree made fresh) {text : String}
    (held : made.entry? place = some (.file text)) : tree.entry? place = some (.file text) := by
  cases before : tree.entry? place with
  | none => cases (grows.introduced place _ held before).1
  | some old => rw [← grows.kept place old before, held]

theorem find (grows : Grows tree made fresh) {item : List String × FileEntry}
    (found : tree.find path = .ok item) : made.find path = .ok item := by
  obtain ⟨place, entry⟩ := item
  obtain ⟨located, held⟩ := find_eq_ok_iff.mp found
  exact find_eq_ok_iff.mpr ⟨grows.locate located, grows.kept place entry held⟩

end Grows

theorem length_of_walk {reached steps : List String}
    (walked : tree.walk reached steps = .ok place) :
    place.length ≤ reached.length + steps.length := by
  induction steps generalizing reached with
  | nil =>
      cases walked
      exact Nat.le_refl _
  | cons step rest ih =>
      rw [walk] at walked
      split at walked
      · cases walked
      · cases walked
      · split at walked
        · have short := ih walked
          rw [List.length_dropLast] at short
          rw [List.length_cons]
          omega
        · split at walked
          · cases walked
          · have short := ih walked
            rw [List.length_append, List.length_singleton] at short
            rw [List.length_cons]
            omega

theorem length_of_locate (located : tree.locate path = .ok place) :
    place.length ≤ (tree.stepsTo path).length := by
  simpa using length_of_walk (locate_eq_ok_iff.mp located).2

theorem ensureDirectory_grows (tree : FileTree) (path : String) :
    Grows tree (tree.ensureDirectory path).1 fun place =>
      place.length ≤ (tree.stepsTo path).length := by
  cases done : tree.makeDirectory path with
  | error fault =>
      have stays : (tree.ensureDirectory path).1 = tree := by
        rw [ensureDirectory, done]
        split
        · rename_i impossible
          cases impossible
        · rfl
        · rfl
      rw [stays]
      exact .refl tree _
  | ok made =>
      have makes : (tree.ensureDirectory path).1 = made := by
        rw [ensureDirectory, done]
      rw [makes]
      obtain ⟨place, located, vacant, rfl⟩ := makeDirectory_eq_ok_iff.mp done
      have deep := deep_of_absent vacant
      constructor
      · exact root_put
      · intro p entry known
        rw [lookup_put deep, if_neg, known]
        rintro rfl
        rw [vacant] at known
        cases known
      · intro p entry known absent
        rw [lookup_put deep] at known
        split at known
        · rename_i here
          cases known
          exact ⟨rfl, here ▸ length_of_locate located⟩
        · rw [absent] at known
          cases known

/-- A path that is one step longer leads one step further, unless it leads to the root itself. -/
theorem stepsTo_concat (absolute : FilePath.anchor tree.root ≠ "") {path above step : String}
    (anchors : FilePath.anchor path = "" ↔ FilePath.anchor above = "")
    (longer : FilePath.steps path = FilePath.steps above ++ [step]) :
    tree.stepsTo path = [] ∨ tree.stepsTo path = tree.stepsTo above ++ [step] := by
  by_cases relative : FilePath.anchor above = ""
  · right
    rw [stepsTo_of_relative (anchors.mpr relative) absolute,
      stepsTo_of_relative relative absolute, longer]
  · have anchored : FilePath.anchor path ≠ "" := fun none => relative (anchors.mp none)
    by_cases inside : FilePath.steps tree.root <+: FilePath.steps above
    · right
      have insidePath : FilePath.steps tree.root <+: FilePath.steps path := by
        rw [longer]
        exact inside.trans (List.prefix_append _ _)
      rw [stepsTo_of_absolute (.inl anchored) insidePath,
        stepsTo_of_absolute (.inl relative) inside, longer,
        List.drop_append_of_le_length inside.length_le]
    · by_cases insidePath : FilePath.steps tree.root <+: FilePath.steps path
      · left
        rw [longer, List.prefix_concat_iff] at insidePath
        rcases insidePath with same | within
        · have whole : FilePath.steps tree.root <+: FilePath.steps path :=
            (same.trans longer.symm) ▸ List.prefix_rfl
          rw [stepsTo_of_absolute (.inl anchored) whole, longer, same, List.drop_length]
        · exact absurd within inside
      · right
        have apart : ∀ {p}, FilePath.anchor p ≠ "" →
            ¬ FilePath.steps tree.root <+: FilePath.steps p →
            tree.stepsTo p = "/" :: FilePath.steps p := by
          intro p anchored outside
          have notPrefix : (FilePath.steps tree.root).isPrefixOf (FilePath.steps p) = false := by
            rw [← Bool.not_eq_true, List.isPrefixOf_iff_prefix]
            exact outside
          simp [FileTree.stepsTo, anchored, notPrefix]
        rw [apart anchored insidePath, apart relative inside, longer]
        rfl

theorem makeDirectory_of_root {path : String} (top : tree.stepsTo path = []) :
    tree.makeDirectory path ≠ .error .notFound := by
  cases located : tree.locate path with
  | error fault =>
      rw [makeDirectory_of_not_located located]
      rintro ⟨⟩
      unfold FileTree.locate at located
      rw [top] at located
      split at located
      · cases located
      · cases located
  | ok place =>
      rw [makeDirectory_of_located located]
      split
      · exact nofun
      · exact nofun

theorem length_stepsTo_of_missing (absolute : FilePath.anchor tree.root ≠ "")
    {path above step : String} (anchors : FilePath.anchor path = "" ↔ FilePath.anchor above = "")
    (longer : FilePath.steps path = FilePath.steps above ++ [step])
    (missing : tree.makeDirectory path = .error .notFound) :
    (tree.stepsTo above).length ≤ (tree.stepsTo path).length := by
  rcases stepsTo_concat absolute anchors longer with top | further
  · exact absurd missing (makeDirectory_of_root top)
  · rw [further, List.length_append]
    exact Nat.le_add_right _ _

/-- Directories are made on the way to a path, and no further down. -/
theorem makeAlong_grows (path : String) {names : List String}
    (clean : FilePath.IsClean names.reverse) (tree : FileTree) :
    Grows tree (makeAlong (FilePath.anchor path) names tree).1 fun place =>
      FilePath.anchor tree.root ≠ "" → place.length ≤
        (tree.stepsTo (FilePath.ofSteps (FilePath.anchor path) names.reverse)).length := by
  have ensured (middle : FileTree) (names : List String) (same : middle.root = tree.root) :
      Grows middle (middle.ensureDirectory
          (FilePath.ofSteps (FilePath.anchor path) names)).1 fun place =>
        FilePath.anchor tree.root ≠ "" → place.length ≤
          (tree.stepsTo (FilePath.ofSteps (FilePath.anchor path) names)).length := by
    refine (ensureDirectory_grows middle _).weaken fun place short _ => ?_
    unfold FileTree.stepsTo at short ⊢
    rwa [same] at short
  induction names with
  | nil =>
      rw [makeAlong]
      exact ensured tree [] rfl
  | cons step above ih =>
      rw [List.reverse_cons] at clean ⊢
      have cleanAbove : FilePath.IsClean above.reverse := fun name member =>
        clean name (List.mem_append_left _ member)
      have anchors : FilePath.anchor (FilePath.ofSteps (FilePath.anchor path)
            (above.reverse ++ [step])) = "" ↔
          FilePath.anchor (FilePath.ofSteps (FilePath.anchor path) above.reverse) = "" := by
        rw [FilePath.anchor_ofSteps path clean, FilePath.anchor_ofSteps path cleanAbove]
      have longer : FilePath.steps (FilePath.ofSteps (FilePath.anchor path)
            (above.reverse ++ [step])) =
          FilePath.steps (FilePath.ofSteps (FilePath.anchor path) above.reverse) ++ [step] := by
        rw [FilePath.steps_ofSteps path clean, FilePath.steps_ofSteps path cleanAbove]
      rw [makeAlong, List.reverse_cons]
      split
      · rename_i missing
        have grows := (ih cleanAbove).weaken fun _ short absolute =>
          Nat.le_trans (short absolute)
            (length_stepsTo_of_missing absolute anchors longer missing)
        split
        · rename_i middle climbed
          rw [climbed] at grows
          exact grows.trans (ensured middle _ grows.root)
        · rename_i middle failure climbed
          rw [climbed] at grows
          exact grows
      · exact ensured tree _ rfl

theorem makeDirectories_grows (tree : FileTree) (path : String) :
    Grows tree (tree.makeDirectories path).1 fun place =>
      FilePath.anchor tree.root ≠ "" →
        place.length ≤ (tree.stepsTo (FilePath.normalize path)).length := by
  unfold makeDirectories
  split
  · exact .refl tree _
  · have clean := FilePath.isClean_steps path
    rw [← List.reverse_reverse (FilePath.steps path)] at clean
    have grows := makeAlong_grows path clean tree
    rw [List.reverse_reverse] at grows
    exact grows

end Growth

section Plain

/-- Entries lie in directories, below a root whose path is absolute. -/
structure Rooted (tree : FileTree) : Prop where
  absolute : FilePath.anchor tree.root ≠ ""
  inside : ∀ item ∈ tree.entries, tree.entry? item.1.dropLast = some .directory

theorem Rooted.above (rooted : tree.Rooted) {entry : FileEntry}
    (held : tree.entry? place = some entry) : tree.entry? place.dropLast = some .directory := by
  cases place with
  | nil => rfl
  | cons step rest =>
      rw [lookup_eq_find? (List.cons_ne_nil step rest)] at held
      obtain ⟨item, found, -⟩ := Option.map_eq_some_iff.mp held
      have same : item.1 = step :: rest := by simpa using List.find?_some found
      rw [← same]
      exact rooted.inside item (List.mem_of_find?_eq_some found)

/-- The way to an entry leads through directories. -/
theorem Rooted.way (rooted : tree.Rooted) {front back : List String} (further : back ≠ [])
    {entry : FileEntry} (held : tree.entry? (front ++ back) = some entry) :
    tree.entry? front = some .directory := by
  induction back using List.reverseRecOn generalizing entry with
  | nil => exact absurd rfl further
  | append_singleton back last ih =>
      have above := rooted.above held
      rw [← List.append_assoc, List.dropLast_concat] at above
      by_cases near : back = []
      · rwa [near, List.append_nil] at above
      · exact ih near above

/-- Steps that lead down, with names that are short enough. -/
def IsPlain (steps : List String) : Prop :=
  ∀ step ∈ steps, step ≠ ".." ∧ step.utf8ByteSize ≤ nameLimit

variable {steps reached : List String}

theorem isPlain_stepsTo (tree : FileTree) {path : String} (plain : IsPlain (FilePath.steps path)) :
    IsPlain (tree.stepsTo path) := by
  have below : ∀ names : List String, IsPlain names → IsPlain ("/" :: names) := fun names plain =>
    List.forall_mem_cons.mpr ⟨⟨by decide, by decide⟩, plain⟩
  unfold stepsTo
  dsimp only
  split
  · split
    · exact fun step member => plain step (List.mem_of_mem_drop member)
    · exact below _ plain
  · exact plain

theorem Rooted.walk (rooted : tree.Rooted) (plain : IsPlain steps) {entry : FileEntry}
    (held : tree.entry? (reached ++ steps) = some entry) :
    tree.walk reached steps = .ok (reached ++ steps) := by
  induction steps generalizing reached with
  | nil => rw [FileTree.walk, List.append_nil]
  | cons step rest ih =>
      obtain ⟨⟨down, short⟩, plainRest⟩ := List.forall_mem_cons.mp plain
      have here := rooted.way (List.cons_ne_nil step rest) held
      rw [List.append_cons] at held ⊢
      rw [FileTree.walk, here]
      dsimp only
      rw [if_neg (by simpa using down), if_neg (Nat.not_lt.mpr short)]
      exact ih plainRest held

theorem Rooted.find (rooted : tree.Rooted) (plain : IsPlain (FilePath.steps path))
    (short : ¬ pathLimit ≤ path.utf8ByteSize) {entry : FileEntry}
    (held : tree.entry? (tree.stepsTo path) = some entry) :
    tree.find path = .ok (tree.stepsTo path, entry) := by
  have walked : tree.walk [] (tree.stepsTo path) = .ok (tree.stepsTo path) :=
    rooted.walk (isPlain_stepsTo tree plain) held
  exact find_eq_ok_iff.mpr ⟨locate_eq_ok_iff.mpr ⟨short, walked⟩, held⟩

end Plain

section Names

theorem stepsTo_child_cases (tree : FileTree) (directory : String) {name : String}
    (isName : FilePath.IsName name) :
    tree.stepsTo (FilePath.child directory name) = [] ∨
      ∃ front, tree.stepsTo (FilePath.child directory name) = front ++ [name] := by
  have steps := FilePath.steps_child directory isName
  unfold stepsTo
  dsimp only
  split
  · split
    · rw [steps]
      rcases Nat.lt_or_ge (FilePath.steps directory).length
        (FilePath.steps tree.root).length with all | some
      · refine .inl (List.drop_eq_nil_of_le ?_)
        rw [List.length_append]
        exact all
      · exact .inr ⟨_, List.drop_append_of_le_length some⟩
    · exact .inr ⟨"/" :: FilePath.steps directory, by rw [steps]; rfl⟩
  · exact .inr ⟨_, steps⟩

theorem getLast?_of_walk {reached front : List String} {name : String}
    (isName : FilePath.IsName name) (walked : tree.walk reached (front ++ [name]) = .ok place) :
    place.getLast? = some name := by
  rw [walk_append] at walked
  obtain ⟨middle, -, last⟩ := Outcome.bind_ok_iff.mp walked
  have notAbove : (name == "..") = false := by simpa using isName.notAbove
  rw [walk] at last
  split at last
  · cases last
  · cases last
  · rw [notAbove, if_neg Bool.false_ne_true] at last
    split at last
    · cases last
    · cases last
      exact List.getLast?_concat

/-- A path that ends in a name leads to the root or to an entry of that name. -/
theorem getLast?_of_locate {directory name : String} (isName : FilePath.IsName name)
    (located : tree.locate (FilePath.child directory name) = .ok place) :
    place = [] ∨ place.getLast? = some name := by
  have walked := (locate_eq_ok_iff.mp located).2
  rcases stepsTo_child_cases tree directory isName with top | ⟨front, split⟩
  · rw [top] at walked
    cases walked
    exact .inl rfl
  · rw [split] at walked
    exact .inr (getLast?_of_walk isName walked)

end Names

section Loss

variable {lost : List String}

end Loss

section Making

variable {directory : String}

end Making

end WebHarvest.FileTree
