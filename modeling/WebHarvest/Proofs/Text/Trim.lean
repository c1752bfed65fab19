import Mathlib.Data.List.DropRight
import Mathlib.Data.List.TakeWhile
import Mathlib.Order.Lattice.Nat
import WebHarvest.Text.Blank
import WebHarvest.Text.Ending

/-!
# Trimming

A trimmed text starts with the first character that is not trimmed off and ends with the last one.
Runs at the end of a text are trimmed off as well, provided that line ends can be part of them:
otherwise the line end that a text closes with would stay behind a run.
-/

set_option autoImplicit false

namespace WebHarvest.Text

variable {p q : Char → Bool} {cs tail : List Char} {c : Char} {first last run : Nat}

theorem mem_dropWhile_of_not (member : c ∈ cs) (kept : p c = false) : c ∈ cs.dropWhile p := by
  rw [← List.takeWhile_append_dropWhile (p := p) (l := cs), List.mem_append] at member
  rcases member with dropped | member
  · rw [List.mem_takeWhile_imp dropped] at kept
    cases kept
  · exact member

theorem mem_trimEnd_of_not (member : c ∈ cs) (kept : p c = false) : c ∈ trimEnd p cs :=
  List.mem_reverse.mpr (mem_dropWhile_of_not (List.mem_reverse.mpr member) kept)

theorem trimEnd_eq_nil_iff : trimEnd p cs = [] ↔ ∀ c ∈ cs, p c = true :=
  List.rdropWhile_eq_nil_iff

theorem trimEnd_append_of_all (all : ∀ c ∈ tail, p c = true) :
    trimEnd p (cs ++ tail) = trimEnd p cs := by
  have dropped : ∀ c ∈ tail.reverse, p c = true := fun c member =>
    all c (List.mem_reverse.mp member)
  rw [trimEnd, List.reverse_append, List.dropWhile_append_of_pos dropped, trimEnd]

theorem trimEnd_cons_of_not_all (kept : ¬ ∀ d ∈ c :: cs, p d = true) :
    trimEnd p (c :: cs) = c :: trimEnd p cs := by
  rw [trimEnd, List.reverse_cons, List.dropWhile_append]
  by_cases all : ∀ d ∈ cs, p d = true
  · have notFirst : ¬ p c = true := fun isFirst => kept (List.forall_mem_cons.mpr ⟨isFirst, all⟩)
    have nothing : cs.reverse.dropWhile p = [] :=
      List.reverse_eq_nil_iff.mp (trimEnd_eq_nil_iff.mpr all)
    simp [trimEnd, nothing, notFirst]
  · have something : cs.reverse.dropWhile p ≠ [] := fun nothing =>
      all (trimEnd_eq_nil_iff.mp (List.reverse_eq_nil_iff.mpr nothing))
    simp [trimEnd, List.isEmpty_eq_false_iff.mpr something]

section FinalRuns

theorem all_of_isAtEnd (lineEnd : p '\n' = true) (atEnd : isAtEnd cs = true) :
    ∀ c ∈ cs, p c = true := by
  unfold isAtEnd at atEnd
  split at atEnd
  · exact nofun
  · exact List.forall_mem_singleton.mpr lineEnd
  · cases atEnd

theorem finalRun?_of_all (all : ∀ d ∈ c :: cs, p d = true) :
    finalRun? p (c :: cs) = some (cs.length + 1) := by
  induction cs generalizing c with
  | nil => rw [finalRun?, if_pos (all c List.mem_cons_self)]; rfl
  | cons d cs ih =>
      obtain ⟨isFirst, others⟩ := List.forall_mem_cons.mp all
      rw [finalRun?, if_pos isFirst, ih others]
      rfl

/-- A run that does not reach the end has no part that does: nothing but a line end could follow
such a part, and the line end would belong to the run. -/
theorem finalRun?_of_not_all (lineEnd : p '\n' = true) (kept : ¬ ∀ d ∈ cs, p d = true) :
    finalRun? p cs = none := by
  induction cs with
  | nil => rfl
  | cons c cs ih =>
      rw [finalRun?]
      split
      · rename_i isFirst
        have others : ¬ ∀ d ∈ cs, p d = true := fun all =>
          kept (List.forall_mem_cons.mpr ⟨isFirst, all⟩)
        have further : ¬ isAtEnd cs = true := fun atEnd => others (all_of_isAtEnd lineEnd atEnd)
        rw [ih others, if_neg further]
      · rfl

theorem dropFinalRuns_of_length_le (within : cs.length ≤ run) : dropFinalRuns p run cs = [] := by
  induction cs generalizing run with
  | nil => rw [dropFinalRuns]
  | cons c cs ih =>
      cases run with
      | zero => cases within
      | succ run =>
          rw [dropFinalRuns]
          exact ih (Nat.le_of_succ_le_succ within)

/-- Where line ends can be part of a run, only the last run stands at the end, and all of it. -/
theorem dropFinalRuns_eq_trimEnd (lineEnd : p '\n' = true) (cs : List Char) :
    dropFinalRuns p 0 cs = trimEnd p cs := by
  induction cs with
  | nil => rfl
  | cons c cs ih =>
      by_cases all : ∀ d ∈ c :: cs, p d = true
      · rw [dropFinalRuns, finalRun?_of_all all, trimEnd_eq_nil_iff.mpr all]
        exact dropFinalRuns_of_length_le (Nat.le_refl _)
      · rw [dropFinalRuns, finalRun?_of_not_all lineEnd all, trimEnd_cons_of_not_all all, ← ih]

/-- Where line ends are no part of a run, the one that closes the text stays. -/
example : dropFinalRuns (· == ';') 0 "a;b;;\n".toList = "a;b\n".toList := by decide

end FinalRuns

/-- The ends can be trimmed in either order, whatever is trimmed off each of them. -/
theorem trimEnd_dropWhile (cs : List Char) :
    trimEnd q (cs.dropWhile p) = (trimEnd q cs).dropWhile p := by
  -- Either nothing stays at the end, or the end leaves the first character to the front.
  induction cs with
  | nil => rfl
  | cons c cs ih =>
      by_cases all : ∀ d ∈ c :: cs, q d = true
      · have none : ∀ d ∈ (c :: cs).dropWhile p, q d = true := fun d member =>
          all d (List.dropWhile_subset p member)
        rw [trimEnd_eq_nil_iff.mpr none, trimEnd_eq_nil_iff.mpr all, List.dropWhile_nil]
      · rw [trimEnd_cons_of_not_all all]
        by_cases dropped : p c = true
        · rw [List.dropWhile_cons_of_pos dropped, List.dropWhile_cons_of_pos dropped, ih]
        · rw [List.dropWhile_cons_of_neg dropped, List.dropWhile_cons_of_neg dropped,
            trimEnd_cons_of_not_all all]

section Weaker

variable (weaker : ∀ c, p c = true → q c = true)
include weaker

theorem trimEnd_trimEnd (cs : List Char) : trimEnd p (trimEnd q cs) = trimEnd q cs :=
  List.rdropWhile_eq_self_iff.mpr fun something dropped =>
    List.rdropWhile_last_not q cs something (weaker _ dropped)

theorem trimBoth_trimEnd (cs : List Char) :
    trimBoth p (trimEnd q cs) = (trimEnd q cs).dropWhile p := by
  rw [trimBoth, trimEnd_dropWhile, trimEnd_trimEnd weaker]

theorem trimBoth_trimEnd_eq_nil_iff :
    trimBoth p (trimEnd q cs) = [] ↔ ∀ c ∈ cs, q c = true := by
  rw [trimBoth_trimEnd weaker, List.dropWhile_eq_nil_iff]
  constructor
  · intro all c member
    refine Bool.of_not_eq_false fun kept => Bool.eq_false_iff.mp kept ?_
    exact weaker c (all c (mem_trimEnd_of_not member kept))
  · intro all c member
    rw [trimEnd_eq_nil_iff.mpr all] at member
    cases member

theorem trimBoth_trimEnd_idempotent (cs : List Char) :
    trimBoth p (trimEnd q (trimBoth p (trimEnd q cs))) = trimBoth p (trimEnd q cs) := by
  have once : trimEnd q ((trimEnd q cs).dropWhile p) = (trimEnd q cs).dropWhile p := by
    rw [trimEnd_dropWhile, trimEnd_trimEnd fun _ => id]
  rw [trimBoth_trimEnd weaker, trimBoth_trimEnd weaker, once, List.dropWhile_idempotent]

end Weaker

/-- The positions in a text of the characters that have a property. -/
def positions (property : Char → Prop) (cs : List Char) : Set Nat :=
  {i : Nat | ∃ c, cs[i]? = some c ∧ property c}

theorem dropWhile_eq_drop (isFirst : IsLeast (positions (p · = false) cs) first) :
    cs.dropWhile p = cs.drop first := by
  obtain ⟨⟨c, there, kept⟩, least⟩ := isFirst
  obtain ⟨inside, same⟩ := List.getElem?_eq_some_iff.mp there
  have before : ∀ d ∈ cs.take first, p d = true := by
    intro d member
    obtain ⟨i, earlier, found⟩ := List.mem_take_iff_getElem.mp member
    refine Bool.of_not_eq_false fun stays => ?_
    have notEarlier : first ≤ i := least ⟨d, List.getElem?_eq_some_iff.mpr ⟨_, found⟩, stays⟩
    omega
  have notDropped : p c ≠ true := Bool.eq_false_iff.mp kept
  calc cs.dropWhile p
      = (cs.take first ++ cs.drop first).dropWhile p := by rw [List.take_append_drop]
    _ = (cs.drop first).dropWhile p := List.dropWhile_append_of_pos before
    _ = cs.drop first := by
        rw [List.drop_eq_getElem_cons inside, same, List.dropWhile_cons_of_neg notDropped]

theorem trimEnd_eq_take (isLast : IsGreatest (positions (p · = false) cs) last) :
    trimEnd p cs = cs.take (last + 1) := by
  obtain ⟨⟨c, there, kept⟩, greatest⟩ := isLast
  have behind : ∀ d ∈ cs.drop (last + 1), p d = true := by
    intro d member
    obtain ⟨i, inside, found⟩ := List.mem_drop_iff_getElem.mp member
    refine Bool.of_not_eq_false fun stays => ?_
    have notLater : last + 1 + i ≤ last :=
      greatest ⟨d, List.getElem?_eq_some_iff.mpr ⟨_, found⟩, stays⟩
    omega
  have notDropped : p c ≠ true := Bool.eq_false_iff.mp kept
  have ending : cs.take (last + 1) = cs.take last ++ [c] := by
    rw [List.take_add_one, there, Option.toList_some]
  calc trimEnd p cs
      = trimEnd p (cs.take (last + 1) ++ cs.drop (last + 1)) := by rw [List.take_append_drop]
    _ = trimEnd p (cs.take (last + 1)) := trimEnd_append_of_all behind
    _ = cs.take (last + 1) := by
        rw [ending]
        exact List.rdropWhile_concat_neg p _ c notDropped

/-- What is left between the first character that stays at the front and the last one that stays at
the end. The first one is not trimmed off the end, as it stands before the last one. -/
theorem trimBoth_trimEnd_eq_extract (weaker : ∀ c, p c = true → q c = true)
    (isFirst : IsLeast (positions (p · = false) cs) first)
    (isLast : IsGreatest (positions (q · = false) cs) last) :
    trimBoth p (trimEnd q cs) = cs.extract first (last + 1) := by
  obtain ⟨⟨c, there, kept⟩, least⟩ := isFirst
  have inOrder : first ≤ last := by
    obtain ⟨d, behind, stays⟩ := isLast.1
    refine least ⟨d, behind, Bool.of_not_eq_true fun dropped => ?_⟩
    rw [weaker d dropped] at stays
    cases stays
  have alsoFirst : IsLeast (positions (p · = false) (cs.take (last + 1))) first := by
    refine ⟨⟨c, ?_, kept⟩, fun i found => ?_⟩
    · rw [List.getElem?_take_of_lt (Nat.lt_succ_of_le inOrder), there]
    · obtain ⟨d, inFront, stays⟩ := found
      rw [List.getElem?_take, Option.ite_none_right_eq_some] at inFront
      exact least ⟨d, inFront.2, stays⟩
  rw [trimBoth_trimEnd weaker, trimEnd_eq_take isLast, dropWhile_eq_drop alsoFirst,
    List.extract_eq_drop_take']

section Positions

variable {property : Char → Prop}

theorem exists_isLeast_positions (found : ∃ c ∈ cs, property c) :
    ∃ first, IsLeast (positions property cs) first := by
  obtain ⟨c, member, isOne⟩ := found
  obtain ⟨i, there⟩ := List.mem_iff_getElem?.mp member
  exact ⟨_, isLeast_csInf ⟨i, c, there, isOne⟩⟩

theorem exists_isGreatest_positions (found : ∃ c ∈ cs, property c) :
    ∃ last, IsGreatest (positions property cs) last := by
  obtain ⟨c, member, isOne⟩ := found
  obtain ⟨i, there⟩ := List.mem_iff_getElem?.mp member
  have bounded : BddAbove (positions property cs) := by
    refine ⟨cs.length, ?_⟩
    rintro j ⟨d, inside, -⟩
    exact Nat.le_of_lt (List.getElem?_eq_some_iff.mp inside).1
  exact ⟨_, Nat.sSup_mem ⟨i, c, there, isOne⟩ bounded, fun _ => le_csSup bounded⟩

end Positions

end WebHarvest.Text
