import WebHarvest.Json.Reader
import WebHarvest.Json.Writer

/-!
# Texts within JSON

A text is written with an escape for every character that could end it or a line, and on demand for
every one outside ASCII. The reader undoes the escapes.
-/

set_option autoImplicit false

namespace WebHarvest.Json

theorem unbroken_hexPadded (width n : Nat) :
    ∀ c ∈ Text.hexPadded width n, 0x20 ≤ c.toNat := by
  have digit : ∀ n < 16, 0x20 ≤ (Nat.digitChar n).toNat := by decide
  induction width generalizing n with
  | zero => exact nofun
  | succ width ih =>
      intro c member
      rcases List.mem_append.mp member with before | last
      · exact ih _ c before
      · obtain rfl := List.mem_singleton.mp last
        exact digit _ (Nat.mod_lt n (by decide))

theorem hexValue?_hexDigit (n : Nat) : hexValue? (Text.hexDigit n) = some (n % 16) := by
  have digit : ∀ n < 16, hexValue? (Nat.digitChar n) = some n := by decide
  exact digit _ (Nat.mod_lt n (by decide))

theorem readUnit_hexPadded {n : Nat} (small : n < 0x10000) (rest : List Char) :
    readUnit (Text.hexPadded 4 n ++ rest) = some (n, rest) := by
  simp only [Text.hexPadded, List.nil_append, List.cons_append, readUnit, hexValue?_hexDigit,
    Option.map_some, bind, Option.bind, pure]
  congr 2
  omega

theorem readEscapedUnits_single {n : Nat} (basic : n < 0xd800 ∨ 0xe000 ≤ n ∧ n < 0x10000)
    (rest : List Char) :
    readEscapedUnits (Text.hexPadded 4 n ++ rest) = some (Char.ofNat n, rest) := by
  have noHigh : (decide (0xd800 ≤ n) && decide (n < 0xdc00)) = false := by
    rw [Bool.and_eq_false_iff, decide_eq_false_iff_not, decide_eq_false_iff_not]
    omega
  have noLow : (decide (0xdc00 ≤ n) && decide (n < 0xe000)) = false := by
    rw [Bool.and_eq_false_iff, decide_eq_false_iff_not, decide_eq_false_iff_not]
    omega
  simp only [readEscapedUnits, readUnit_hexPadded (by omega : n < 0x10000), bind, Option.bind,
    noHigh, noLow, Bool.false_eq_true, if_false]
  rfl

theorem readEscapedUnits_pair {high low : Nat} (isHigh : high < 0x400) (isLow : low < 0x400)
    (rest : List Char) :
    readEscapedUnits (Text.hexPadded 4 (0xd800 + high) ++
        ('\\' :: 'u' :: (Text.hexPadded 4 (0xdc00 + low) ++ rest))) =
      some (Char.ofNat (0x10000 + high * 0x400 + low), rest) := by
  have first : (decide (0xd800 ≤ 0xd800 + high) && decide (0xd800 + high < 0xdc00)) = true := by
    rw [Bool.and_eq_true, decide_eq_true_eq, decide_eq_true_eq]
    omega
  have second : (decide (0xdc00 ≤ 0xdc00 + low) && decide (0xdc00 + low < 0xe000)) = true := by
    rw [Bool.and_eq_true, decide_eq_true_eq, decide_eq_true_eq]
    omega
  simp only [readEscapedUnits, readUnit_hexPadded (by omega : 0xd800 + high < 0x10000),
    readUnit_hexPadded (by omega : 0xdc00 + low < 0x10000), bind, Option.bind, first, second,
    if_true, Nat.add_sub_cancel_left]
  rfl

/-- One unit stands for a character of the basic plane, and two for any other. -/
theorem escapeChar_reads (c : Char) :
    ∃ escaped, escapeChar c = '\\' :: escaped ∧
      (∀ d ∈ escaped, 0x20 ≤ d.toNat) ∧ ∀ rest, readEscape (escaped ++ rest) = some (c, rest) := by
  have valid : c.toNat < 0xd800 ∨ 0xdfff < c.toNat ∧ c.toNat < 0x110000 := c.valid
  have mark : ∀ n, ∀ d ∈ 'u' :: Text.hexPadded 4 n, 0x20 ≤ d.toNat := fun n =>
    List.forall_mem_cons.mpr ⟨by decide, unbroken_hexPadded 4 n⟩
  unfold escapeChar
  split
  · refine ⟨_, rfl, mark _, fun rest => ?_⟩
    have reads := readEscapedUnits_single (by omega : c.toNat < 0xd800 ∨ _) rest
    rwa [Char.ofNat_toNat] at reads
  · refine ⟨('u' :: Text.hexPadded 4 _) ++ ('\\' :: 'u' :: Text.hexPadded 4 _), rfl, ?_,
      fun rest => ?_⟩
    · exact List.forall_mem_append.mpr
        ⟨mark _, List.forall_mem_cons.mpr ⟨by decide, mark _⟩⟩
    · have reads := readEscapedUnits_pair (by omega : (c.toNat - 0x10000) / 0x400 < 0x400)
        (Nat.mod_lt (c.toNat - 0x10000) (by decide : 0 < 0x400)) rest
      rw [show 0x10000 + (c.toNat - 0x10000) / 0x400 * 0x400 + (c.toNat - 0x10000) % 0x400 =
        c.toNat by omega, Char.ofNat_toNat] at reads
      rw [List.append_assoc]
      exact reads

section Writing

variable (asciiOnly : Bool)

/-- A character is escaped, or it stands for itself. -/
theorem writeChar_cases (c : Char) :
    (∃ escaped, writeChar asciiOnly c = '\\' :: escaped ∧
      (∀ d ∈ escaped, 0x20 ≤ d.toNat) ∧ ∀ rest, readEscape (escaped ++ rest) = some (c, rest)) ∨
    (0x20 ≤ c.toNat ∧ c ≠ '"' ∧ c ≠ '\\' ∧ writeChar asciiOnly c = [c]) := by
  have letter (d : Char) (written : writeChar asciiOnly c = ['\\', d]) (visible : 0x20 ≤ d.toNat)
      (reads : ∀ rest, readEscape (d :: rest) = some (c, rest)) :
      ∃ escaped, writeChar asciiOnly c = '\\' :: escaped ∧
        (∀ d ∈ escaped, 0x20 ≤ d.toNat) ∧ ∀ rest, readEscape (escaped ++ rest) = some (c, rest) :=
    ⟨[d], written, List.forall_mem_singleton.mpr visible, reads⟩
  by_cases quoted : c = '"' ∨ c = '\\'
  · rcases quoted with rfl | rfl <;> exact .inl (letter _ rfl (by decide) fun _ => rfl)
  by_cases named : c = '\n' ∨ c = '\r' ∨ c = '\t' ∨ c = '\x08' ∨ c = '\x0c'
  · rcases named with rfl | rfl | rfl | rfl | rfl <;>
      exact .inl (letter _ rfl (by decide) fun _ => rfl)
  simp only [not_or] at quoted named
  by_cases escapes : (c.toNat < 0x20 || (asciiOnly && 0x7f ≤ c.toNat)) = true
  · have written : writeChar asciiOnly c = escapeChar c := by
      simp only [writeChar, quoted, named, escapes, beq_iff_eq, if_false, if_true,
        Bool.or_eq_true, or_self]
    rw [written]
    exact .inl (escapeChar_reads c)
  · refine .inr ⟨?_, quoted.1, quoted.2, ?_⟩
    · simp only [Bool.or_eq_true, decide_eq_true_eq, not_or] at escapes
      omega
    · simp only [writeChar, quoted, named, escapes, beq_iff_eq, if_false, Bool.or_eq_true, or_self,
        Bool.false_eq_true]

theorem readText_writeChar (c : Char) (fuel : Nat) (seen rest : List Char) :
    readText (fuel + 1) seen (writeChar asciiOnly c ++ rest) = readText fuel (c :: seen) rest := by
  obtain ⟨escaped, written, -, reads⟩ | ⟨printed, noQuote, noSlash, written⟩ :=
    writeChar_cases asciiOnly c
  · rw [written]
    change (readEscape (escaped ++ rest)).bind _ = _
    rw [reads]
    rfl
  · rw [written, List.singleton_append, readText]
    simp [noQuote, noSlash, Nat.not_lt.mpr printed]

theorem readText_written (cs : List Char) {fuel : Nat} (enough : cs.length < fuel)
    (seen rest : List Char) :
    readText fuel seen (cs.flatMap (writeChar asciiOnly) ++ '"' :: rest) =
      some (String.ofList (seen.reverse ++ cs), rest) := by
  induction cs generalizing fuel seen with
  | nil =>
      obtain ⟨fuel, rfl⟩ := Nat.exists_eq_succ_of_ne_zero (Nat.ne_zero_of_lt enough)
      simp [readText]
  | cons c cs ih =>
      obtain ⟨fuel, rfl⟩ := Nat.exists_eq_succ_of_ne_zero (Nat.ne_zero_of_lt enough)
      rw [List.flatMap_cons, List.append_assoc, readText_writeChar,
        ih (Nat.lt_of_succ_lt_succ enough)]
      simp

theorem length_le_written (cs : List Char) :
    cs.length ≤ (cs.flatMap (writeChar asciiOnly)).length := by
  induction cs with
  | nil => exact Nat.le_refl 0
  | cons c cs ih =>
      have some : 1 ≤ (writeChar asciiOnly c).length := by
        obtain ⟨_, written, -⟩ | ⟨-, -, -, written⟩ := writeChar_cases asciiOnly c <;>
          simp [written]
      rw [List.flatMap_cons, List.length_append, List.length_cons]
      omega

theorem unbroken_writeChar (c : Char) : ∀ d ∈ writeChar asciiOnly c, 0x20 ≤ d.toNat := by
  obtain ⟨escaped, written, visible, -⟩ | ⟨printed, -, -, written⟩ :=
    writeChar_cases asciiOnly c
  · rw [written]
    exact List.forall_mem_cons.mpr ⟨by decide, visible⟩
  · rw [written]
    exact List.forall_mem_singleton.mpr printed

theorem toList_writeText (s : String) :
    (writeText asciiOnly s).toList =
      '"' :: (s.toList.flatMap (writeChar asciiOnly) ++ ['"']) := by
  rw [writeText, String.toList_ofList]
  rfl

theorem unbroken_writeText (s : String) :
    ∀ c ∈ (writeText asciiOnly s).toList, 0x20 ≤ c.toNat := by
  rw [toList_writeText]
  intro c member
  simp only [List.mem_cons, List.mem_append, List.mem_flatMap, List.not_mem_nil, or_false]
    at member
  rcases member with rfl | ⟨d, -, inside⟩ | rfl
  · decide
  · exact unbroken_writeChar asciiOnly d c inside
  · decide

/-- A text reads back when its opening quote is already read. -/
theorem readText_writeText (s : String) (fuel : Nat)
    (enough : (writeText asciiOnly s).length ≤ fuel + 1) (rest : List Char) :
    ∃ inner, (writeText asciiOnly s).toList = '"' :: inner ∧
      readText fuel [] (inner ++ rest) = some (s, rest) := by
  refine ⟨_, toList_writeText asciiOnly s, ?_⟩
  have size := length_le_written asciiOnly s.toList
  rw [← String.length_toList, toList_writeText, List.length_cons, List.length_append,
    List.length_singleton] at enough
  rw [List.append_assoc, List.singleton_append, readText_written _ _ (by omega)]
  simp

end Writing

end WebHarvest.Json
