import WebHarvest.Proofs.Json.Data
import WebHarvest.Proofs.Outcome

/-!
# What a guarded text can hold

A reader of guarded texts enters no container when as many are open as it allows, and it takes no
whole number with too many digits. So nothing that it reads is nested deeper than that or has longer
numbers, whatever the text.
-/

set_option autoImplicit false

namespace WebHarvest.Json

/-- Containers that are not empty are nested at most so many levels deep, and no whole number is too
long. -/
inductive IsModest : Nat → Value → Prop where
  | emptyList {levels : Nat} : IsModest levels (.list [])
  | list {levels : Nat} {items : List Value} (inner : ∀ item ∈ items, IsModest levels item) :
      IsModest (levels + 1) (.list items)
  | emptyMap {levels : Nat} : IsModest levels (.map [])
  | map {levels : Nat} {entries : List (Value × Value)}
      (inner : ∀ entry ∈ entries, IsModest levels entry.2) : IsModest (levels + 1) (.map entries)
  | scalar {levels : Nat} {value : Value} (noList : ∀ items, value ≠ .list items)
      (noTuple : ∀ items, value ≠ .tuple items) (noMap : ∀ entries, value ≠ .map entries)
      (short : ∀ n, value = .int n → FitsInt .guarded n) : IsModest levels value

variable {levels : Nat}

theorem isModest_text (text : String) : IsModest levels (.text text) :=
  .scalar nofun nofun nofun nofun

theorem IsModest.items {items : List Value} (modest : IsModest (levels + 1) (.list items)) :
    ∀ item ∈ items, IsModest levels item := by
  cases modest with
  | emptyList => nofun
  | list inner => exact inner
  | scalar noList => exact absurd rfl (noList items)

theorem IsModest.entries {entries : List (Value × Value)}
    (modest : IsModest (levels + 1) (.map entries)) :
    ∀ entry ∈ entries, IsModest levels entry.2 := by
  cases modest with
  | emptyMap => nofun
  | map inner => exact inner
  | scalar _ _ noMap => exact absurd rfl (noMap entries)

theorem IsModest.lt {n : Nat} (modest : IsModest levels (.int n)) : n < 10 ^ Numeral.digitLimit := by
  cases modest with
  | scalar _ _ _ short =>
      have length : (Nat.toDigits 10 n).length ≤ Numeral.digitLimit :=
        (Nat.le_add_right _ _).trans (short n rfl)
      exact (Nat.length_toDigits_le_iff (by decide) (by decide)).mp length

/-- A list in a list in a list, and so on. -/
def stack : Nat → Value
  | 0 => .null
  | levels + 1 => .list [stack levels]

theorem isData_stack (levels : Nat) : IsData levels (stack levels) := by
  induction levels with
  | zero => exact .null
  | succ levels ih => exact .list (List.forall_mem_singleton.mpr ih)

theorem le_of_isModest_stack {height : Nat} (modest : IsModest levels (stack height)) :
    height ≤ levels := by
  induction height generalizing levels with
  | zero => exact Nat.zero_le levels
  | succ height ih =>
      cases modest with
      | list inner => exact Nat.succ_le_succ (ih (inner _ List.mem_cons_self))
      | scalar noList => exact absurd rfl (noList _)

section Reading

variable {fuel depth : Nat} {cs rest : List Char}

theorem isDigits_of_readDigits {digits : List Char}
    (reads : readDigits cs = some (digits, rest)) : IsDigits digits := by
  unfold readDigits at reads
  dsimp only at reads
  split at reads
  · cases reads
  · rename_i some
    cases reads
    exact ⟨by simpa using some, List.all_eq_true.mp List.all_takeWhile⟩

theorem isDigits_of_readWhole {whole : List Char} (reads : readWhole cs = some (whole, rest)) :
    IsDigits whole := by
  have zero : IsDigits ['0'] := ⟨nofun, List.forall_mem_singleton.mpr rfl⟩
  unfold readWhole at reads
  split at reads
  · split at reads
    · split at reads
      · cases reads
      · cases reads
        exact zero
    · cases reads
      exact zero
  · exact isDigits_of_readDigits reads

theorem fits_of_checkWhole {negative isInteger : Bool} {whole : List Char}
    (passes : checkWhole .guarded negative whole isInteger = .ok ()) :
    FitsWhole .guarded negative whole.length := by
  unfold checkWhole at passes
  by_cases long : Numeral.digitLimit < whole.length + (if negative then 1 else 0)
  · rw [if_pos long] at passes
    cases passes
  · simpa [FitsWhole] using long

/-- A number has no more digits than any numeral for it. -/
theorem fitsInt_of_fitsWhole {negative : Bool} {whole : List Char} (digits : IsDigits whole)
    (fits : FitsWhole .guarded negative whole.length) :
    FitsInt .guarded (if negative then -(Numeral.decimalValue whole : Int)
      else Numeral.decimalValue whole) := by
  have size : (Nat.toDigits 10 (Numeral.decimalValue whole)).length ≤ whole.length :=
    (Nat.length_toDigits_le_iff (by decide) (List.length_pos_of_ne_nil digits.1)).mpr
      (Numeral.decimalValue_lt digits.2)
  unfold FitsInt
  unfold FitsWhole at fits ⊢
  cases negative with
  | true =>
      simp only [and_self, if_true, Int.natAbs_neg, Int.natAbs_natCast] at fits ⊢
      split <;> omega
  | false =>
      have notNegative : ¬ (Numeral.decimalValue whole : Int) < 0 := by omega
      simpa [notNegative] using size.trans fits

theorem demand_of_ok {α : Type} {found : Option α} {value : α}
    (given : (demand found : Except ReadFault α) = .ok value) : found = some value := by
  cases found with
  | none => cases given
  | some item => exact congrArg some (Except.ok.inj given)

theorem isModest_readNumber {negative : Bool} {value : Value}
    (reads : readNumber .guarded negative cs = .ok (value, rest)) : IsModest levels value := by
  unfold readNumber at reads
  obtain ⟨⟨whole, cs⟩, wholeRead, reads⟩ := Outcome.bind_ok_iff.mp reads
  obtain ⟨⟨fraction, cs⟩, -, reads⟩ := Outcome.bind_ok_iff.mp reads
  obtain ⟨⟨exponent, cs⟩, -, reads⟩ := Outcome.bind_ok_iff.mp reads
  obtain ⟨⟨⟩, passes, reads⟩ := Outcome.bind_ok_iff.mp reads
  have digits := isDigits_of_readWhole (demand_of_ok wholeRead)
  have fits := fitsInt_of_fitsWhole digits (fits_of_checkWhole passes)
  dsimp only at reads
  split at reads
  · cases reads
    exact .scalar nofun nofun nofun fun n same => Value.int.inj same ▸ fits
  · cases reads
    exact .scalar nofun nofun nofun nofun

theorem isModest_readScalar {value : Value}
    (reads : readScalar .guarded cs = .ok (value, rest)) : IsModest levels value := by
  have named (text : List Char) {word : String} {given : Value}
      (reads : demand ((stripWord? word text).map fun rest => (given, rest)) = .ok (value, rest)) :
      value = given := by
    cases stripped : stripWord? word text with
    | none =>
        rw [stripped] at reads
        cases reads
    | some left =>
        rw [stripped] at reads
        cases reads
        rfl
  unfold readScalar at reads
  dsimp only at reads
  split at reads
  case h_7 | h_8 => exact isModest_readNumber reads
  all_goals
    obtain rfl := named _ reads
    exact .scalar nofun nofun nofun nofun

theorem mem_insertEntry {key : String} {value : Value} {record : Record} {entry : String × Value}
    (member : entry ∈ Value.insertEntry key value record) :
    entry ∈ record ∨ entry.2 = value := by
  induction record with
  | nil =>
      obtain rfl := List.mem_singleton.mp member
      exact .inr rfl
  | cons first others ih =>
      rw [Value.insertEntry] at member
      split at member
      · rcases List.mem_cons.mp member with rfl | known
        · exact .inr rfl
        · exact .inl (List.mem_cons_of_mem _ known)
      · rcases List.mem_cons.mp member with rfl | known
        · exact .inl List.mem_cons_self
        · exact (ih known).imp_left (List.mem_cons_of_mem _)

theorem lt_of_enter (enters : enter .guarded depth = .ok ()) : depth < nestingLimit := by
  unfold enter at enters
  split at enters
  · cases enters
  · rename_i inside
    simpa using inside

theorem room_of_enter (enters : enter .guarded depth = .ok ()) :
    nestingLimit - depth = nestingLimit - (depth + 1) + 1 := by
  have inside := lt_of_enter enters
  omega

/-- With so many steps at most, what is read inside containers is nested as deep as these leave room
for, and has no number that is too long. -/
structure ReadsModest (fuel : Nat) : Prop where
  value : ∀ {depth cs value rest}, readValue .guarded fuel depth cs = .ok (value, rest) →
    IsModest (nestingLimit - depth) value
  items : ∀ {depth cs items rest}, readItems .guarded fuel depth cs = .ok (items, rest) →
    ∀ item ∈ items, IsModest (nestingLimit - depth) item
  entries : ∀ {depth seen cs entries rest},
    readEntries .guarded fuel depth seen cs = .ok (entries, rest) →
      (∀ entry ∈ seen, IsModest (nestingLimit - depth) entry.2) →
      ∀ entry ∈ entries, IsModest (nestingLimit - depth) entry.2

theorem ReadsModest.readValue (below : ReadsModest fuel) {value : Value}
    (reads : readValue .guarded (fuel + 1) depth cs = .ok (value, rest)) :
    IsModest (nestingLimit - depth) value := by
  unfold Json.readValue at reads
  split at reads
  · cases reads
  · split at reads
    · cases reads
      exact .emptyList
    · obtain ⟨⟨⟩, enters, reads⟩ := Outcome.bind_ok_iff.mp reads
      obtain ⟨⟨items, left⟩, itemsRead, same⟩ := Outcome.bind_ok_iff.mp reads
      cases same
      obtain rfl := Nat.succ.inj ‹fuel + 1 = Nat.succ _›
      rw [room_of_enter enters]
      exact .list (below.items itemsRead)
  · split at reads
    · cases reads
      exact .emptyMap
    · obtain ⟨⟨⟩, enters, reads⟩ := Outcome.bind_ok_iff.mp reads
      obtain ⟨⟨entries, left⟩, entriesRead, same⟩ := Outcome.bind_ok_iff.mp reads
      cases same
      obtain rfl := Nat.succ.inj ‹fuel + 1 = Nat.succ _›
      rw [room_of_enter enters]
      refine .map fun entry member => ?_
      obtain ⟨own, known, rfl⟩ := List.mem_map.mp member
      exact below.entries entriesRead (List.forall_mem_nil _) own known
  · obtain ⟨⟨text, left⟩, -, same⟩ := Outcome.bind_ok_iff.mp reads
    cases same
    exact isModest_text text
  · exact isModest_readScalar reads

theorem ReadsModest.readItems (below : ReadsModest fuel) {items : List Value}
    (reads : readItems .guarded (fuel + 1) depth cs = .ok (items, rest)) :
    ∀ item ∈ items, IsModest (nestingLimit - depth) item := by
  rw [Json.readItems] at reads
  obtain ⟨⟨first, left⟩, firstRead, reads⟩ := Outcome.bind_ok_iff.mp reads
  have modest := below.value firstRead
  dsimp only at reads
  split at reads
  · cases reads
    exact List.forall_mem_singleton.mpr modest
  · obtain ⟨⟨others, left⟩, othersRead, same⟩ := Outcome.bind_ok_iff.mp reads
    cases same
    exact List.forall_mem_cons.mpr ⟨modest, below.items othersRead⟩
  · cases reads

theorem ReadsModest.readEntries (below : ReadsModest fuel) {seen entries : Record}
    (reads : readEntries .guarded (fuel + 1) depth seen cs = .ok (entries, rest))
    (modest : ∀ entry ∈ seen, IsModest (nestingLimit - depth) entry.2) :
    ∀ entry ∈ entries, IsModest (nestingLimit - depth) entry.2 := by
  have quoted : ∃ text, cs = '"' :: text := by
    unfold Json.readEntries at reads
    split at reads
    · cases reads
    · exact ⟨_, rfl⟩
    · cases reads
  obtain ⟨text, rfl⟩ := quoted
  rw [Json.readEntries] at reads
  obtain ⟨⟨key, left⟩, -, reads⟩ := Outcome.bind_ok_iff.mp reads
  dsimp only at reads
  split at reads
  · obtain ⟨⟨value, left⟩, valueRead, reads⟩ := Outcome.bind_ok_iff.mp reads
    have inserted : ∀ entry ∈ Value.insertEntry key value seen,
        IsModest (nestingLimit - depth) entry.2 := by
      intro entry member
      rcases mem_insertEntry member with known | rfl
      · exact modest entry known
      · exact below.value valueRead
    dsimp only at reads
    split at reads
    · cases reads
      exact inserted
    · exact below.entries reads inserted
    · cases reads
  · cases reads

theorem readsModest (fuel : Nat) : ReadsModest fuel := by
  induction fuel with
  | zero =>
      constructor
      · intro depth cs value rest reads
        rw [readValue] at reads
        cases reads
      · intro depth cs items rest reads
        rw [readItems] at reads
        cases reads
      · intro depth seen cs entries rest reads
        rw [readEntries] at reads
        cases reads
  | succ fuel below => exact ⟨below.readValue, below.readItems, below.readEntries⟩

/-- What is read from a guarded text keeps to the limits. -/
theorem isModest_read {text : String} {value : Value} (reads : read .guarded text = .ok value) :
    IsModest nestingLimit value := by
  unfold Json.read at reads
  obtain ⟨⟨found, left⟩, valueRead, reads⟩ := Outcome.bind_ok_iff.mp reads
  dsimp only at reads
  split at reads
  · cases reads
    exact (readsModest _).value valueRead
  · cases reads

end Reading

end WebHarvest.Json
