import WebHarvest.Files.Path

/-!
# The steps of path texts

A path text is its anchor and its steps: joining a directory and a name adds one step, and a normal
path is spelled by its anchor and its steps alone.
-/

set_option autoImplicit false

namespace WebHarvest.FilePath

/-- A text that names an entry of a directory. -/
structure IsName (name : String) : Prop where
  single : '/' ∉ name.toList
  nonempty : name ≠ ""
  notHere : name ≠ "."
  notAbove : name ≠ ".."

section Steps

theorem steps_append (front back : String) :
    steps (front ++ "/" ++ back) = steps front ++ steps back := by
  have joined : (front ++ "/" ++ back).toList = front.toList ++ '/' :: back.toList := by
    simp [String.toList_append]
  simp only [steps, joined, List.splitOn_append_cons_self, List.map_append, List.filter_append]

theorem steps_of_single {step : String} (single : '/' ∉ step.toList) (nonempty : step ≠ "")
    (notHere : step ≠ ".") : steps step = [step] := by
  simp [steps, List.splitOn_eq_singleton single, nonempty, notHere]

theorem slash_not_mem_splitOn {cs piece : List Char} (member : piece ∈ cs.splitOn '/') :
    '/' ∉ piece := by
  induction cs generalizing piece with
  | nil =>
      rw [List.splitOn_nil] at member
      obtain rfl := List.mem_singleton.mp member
      exact List.not_mem_nil
  | cons c rest ih =>
      rw [List.splitOn_cons_eq_if_modifyHead] at member
      split at member
      · rcases List.mem_cons.mp member with rfl | later
        · exact List.not_mem_nil
        · exact ih later
      · rename_i other
        cases pieces : rest.splitOn '/' with
        | nil => exact absurd pieces (List.splitOn_ne_nil _ _)
        | cons first others =>
            rw [pieces, List.modifyHead_cons] at member
            rcases List.mem_cons.mp member with rfl | later
            · intro slash
              rcases List.mem_cons.mp slash with rfl | inFirst
              · exact other (beq_self_eq_true _)
              · exact ih (pieces ▸ List.mem_cons_self) inFirst
            · exact ih (pieces ▸ List.mem_cons_of_mem _ later)

theorem of_mem_steps {path step : String} (member : step ∈ steps path) :
    '/' ∉ step.toList ∧ step ≠ "" ∧ step ≠ "." := by
  obtain ⟨isPiece, proper⟩ := List.mem_filter.mp member
  obtain ⟨piece, known, rfl⟩ := List.mem_map.mp isPiece
  refine ⟨?_, ?_, ?_⟩
  · rw [String.toList_ofList]
    exact slash_not_mem_splitOn known
  · intro empty
    simp [empty] at proper
  · intro here
    simp [here] at proper

/-- Steps that a path text can spell. -/
def IsClean (steps : List String) : Prop :=
  ∀ step ∈ steps, '/' ∉ step.toList ∧ step ≠ "" ∧ step ≠ "."

theorem isClean_steps (path : String) : IsClean (steps path) := fun _ => of_mem_steps

theorem steps_intercalate {names : List String} (clean : IsClean names) :
    steps ("/".intercalate names) = names := by
  cases names with
  | nil => decide
  | cons first rest =>
      have pieces : ("/".intercalate (first :: rest)).toList.splitOn '/' =
          (first :: rest).map String.toList := by
        rw [String.toList_intercalate]
        refine List.splitOn_intercalate '/' ?_ (by simp)
        intro piece member
        obtain ⟨step, known, rfl⟩ := List.mem_map.mp member
        exact (clean step known).1
      rw [steps, pieces, List.map_map]
      have same : (first :: rest).map (String.ofList ∘ String.toList) = first :: rest := by
        simp
      rw [same, List.filter_eq_self]
      intro step member
      obtain ⟨-, nonempty, notHere⟩ := clean step member
      simp [nonempty, notHere]

end Steps

section Anchor

theorem anchor_eq_empty_iff {path : String} :
    anchor path = "" ↔ path.toList.head? ≠ some '/' := by
  unfold anchor
  cases path.toList with
  | nil => simp
  | cons c rest =>
      by_cases slash : c = '/'
      · simp only [slash, List.takeWhile_cons, beq_self_eq_true, if_true, List.length_cons]
        simp
        split <;> simp
      · simp [slash]

theorem head_intercalate {names : List String} (clean : IsClean names) :
    ("/".intercalate names).toList.head? ≠ some '/' := by
  rw [String.toList_intercalate]
  cases names with
  | nil => simp
  | cons first rest =>
      obtain ⟨single, nonempty, -⟩ := clean first List.mem_cons_self
      cases chars : first.toList with
      | nil => exact absurd (String.toList_eq_nil_iff.mp chars) nonempty
      | cons c others =>
          rw [chars] at single
          have different : c ≠ '/' := fun same => single (same ▸ List.mem_cons_self)
          cases rest <;> simpa [chars, List.intercalate] using different

theorem anchor_cases (path : String) :
    anchor path = "" ∨ anchor path = "/" ∨ anchor path = "//" := by
  unfold anchor
  dsimp only
  split
  · exact Or.inl rfl
  · split
    · exact Or.inr (Or.inr rfl)
    · exact Or.inr (Or.inl rfl)

/-- An anchor is read back before anything that does not begin with a slash. -/
theorem anchor_append (path : String) {rest : String} (plain : rest.toList.head? ≠ some '/') :
    anchor (anchor path ++ rest) = anchor path := by
  have none : rest.toList.takeWhile (· == '/') = [] := by
    cases chars : rest.toList with
    | nil => rfl
    | cons c others =>
        rw [chars] at plain
        have different : (c == '/') = false := by simpa using plain
        simp [different]
  rcases anchor_cases path with same | same | same
  · rw [same, String.empty_append]
    unfold anchor
    rw [none]
    rfl
  · have chars : ("/" ++ rest).toList = '/' :: rest.toList := by simp [String.toList_append]
    rw [same]
    unfold anchor
    simp [chars, none]
  · have chars : ("//" ++ rest).toList = '/' :: '/' :: rest.toList := by
      simp [String.toList_append]
    rw [same]
    unfold anchor
    simp [chars, none]

theorem steps_anchor_append (path rest : String) : steps (anchor path ++ rest) = steps rest := by
  have slash : ∀ text, steps ("/" ++ text) = steps text := by
    intro text
    have apart := steps_append "" text
    rwa [String.empty_append] at apart
  rcases anchor_cases path with same | same | same
  · rw [same, String.empty_append]
  · rw [same, slash]
  · have twice : "//" ++ rest = "/" ++ ("/" ++ rest) := by
      rw [← String.append_assoc]
      rfl
    rw [same, twice, slash, slash]

theorem steps_ofSteps (path : String) {names : List String} (clean : IsClean names) :
    steps (ofSteps (anchor path) names) = names := by
  unfold ofSteps
  dsimp only
  split
  · rename_i empty
    have nothing : anchor path ++ "/".intercalate names = "" := by simpa using empty
    have same := steps_anchor_append path ("/".intercalate names)
    rw [nothing, steps_intercalate clean] at same
    rw [← same]
    decide
  · rw [steps_anchor_append, steps_intercalate clean]

theorem anchor_ofSteps (path : String) {names : List String} (clean : IsClean names) :
    anchor (ofSteps (anchor path) names) = anchor path := by
  unfold ofSteps
  dsimp only
  split
  · rename_i empty
    have nothing : anchor path ++ "/".intercalate names = "" := by simpa using empty
    have none : anchor path = "" := (String.append_eq_empty_iff.mp nothing).1
    rw [none]
    decide
  · exact anchor_append path (head_intercalate clean)

theorem steps_normalize (path : String) : steps (normalize path) = steps path :=
  steps_ofSteps path (isClean_steps path)

theorem anchor_normalize (path : String) : anchor (normalize path) = anchor path :=
  anchor_ofSteps path (isClean_steps path)

theorem normalize_normalize (path : String) : normalize (normalize path) = normalize path := by
  rw [normalize, anchor_normalize, steps_normalize, ← normalize]

end Anchor

section Child

theorem child_cases (directory name : String) :
    directory = "." ∧ child directory name = name ∨
      (∃ front, directory = front ++ "/" ∧ child directory name = directory ++ name) ∨
      directory ≠ "." ∧ ¬ directory.endsWith "/" = true ∧
        child directory name = directory ++ "/" ++ name := by
  unfold child
  by_cases here : directory = "."
  · exact Or.inl ⟨here, by simp [here]⟩
  · refine Or.inr ?_
    by_cases ends : directory.endsWith "/" = true
    · refine Or.inl ?_
      have ended := ends
      rw [String.endsWith_eq_endsWith_toSlice, String.Slice.endsWith_string_iff] at ends
      obtain ⟨front, same⟩ := ends
      refine ⟨String.ofList front, ?_, ?_⟩
      · apply String.toList_injective
        rw [String.toList_append, String.toList_ofList, same]
        simp
      · simp [here, ended]
    · exact Or.inr ⟨here, ends, by simp [here, ends]⟩

theorem child_eq_append (directory : String) :
    ∃ front, ∀ name, child directory name = front ++ name := by
  unfold child
  by_cases here : directory = "."
  · exact ⟨"", by simp [here]⟩
  · by_cases ends : directory.endsWith "/" = true
    · exact ⟨directory, by simp [here, ends]⟩
    · exact ⟨directory ++ "/", by simp [here, ends]⟩

variable {name : String}

theorem steps_child (directory : String) (isName : IsName name) :
    steps (child directory name) = steps directory ++ [name] := by
  have own := steps_of_single isName.single isName.nonempty isName.notHere
  rcases child_cases directory name with ⟨rfl, same⟩ | ⟨front, rfl, same⟩ | ⟨_, _, same⟩
  · rw [same, own]
    rfl
  · have alone := steps_append front ""
    have nothing : steps "" = [] := by decide
    rw [String.append_empty, nothing, List.append_nil] at alone
    rw [same, steps_append, alone, own]
  · rw [same, steps_append, own]

theorem anchor_child {directory : String} (nonempty : directory ≠ "") (isName : IsName name) :
    anchor (child directory name) = "" ↔ anchor directory = "" := by
  have plain : name.toList.head? ≠ some '/' := by
    intro slash
    exact isName.single (List.mem_of_head? slash)
  rw [anchor_eq_empty_iff, anchor_eq_empty_iff]
  have begins : ∀ rest : String, (directory ++ rest).toList.head? = directory.toList.head? := by
    intro rest
    rw [String.toList_append, List.head?_append]
    cases chars : directory.toList with
    | nil => exact absurd (String.toList_eq_nil_iff.mp chars) nonempty
    | cons c others => rfl
  rcases child_cases directory name with ⟨rfl, same⟩ | ⟨_, _, same⟩ | ⟨_, _, same⟩
  · rw [same]
    simp [plain]
  · rw [same, begins]
  · rw [same, String.append_assoc, begins]

theorem normalize_ne_empty (path : String) : normalize path ≠ "" := by
  unfold normalize ofSteps
  dsimp only
  split
  · decide
  · rename_i nonempty
    intro empty
    simp [empty] at nonempty

end Child

end WebHarvest.FilePath
