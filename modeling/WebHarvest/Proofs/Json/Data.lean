import WebHarvest.Json.Plain
import WebHarvest.Proofs.Json.Number
import WebHarvest.Proofs.Json.Text
import WebHarvest.Value.Access

/-!
# What is written reads back

In every style that the library has for files, and for both dialects, data is written to a text that
the reader gives back as the same data, in front of whatever may follow a value. Compact texts have
no line ends.
-/

set_option autoImplicit false

namespace WebHarvest.Json

section Values

variable {style : Style} {dialect : Dialect}

/-- A text that the reader takes for a value, whatever follows. The containers of the value are
nested so many levels deep. -/
structure Conveys (style : Style) (dialect : Dialect) (levels : Nat) (value : Value)
    (text : List Char) : Prop where
  reads : ∀ (fuel depth : Nat) (rest : List Char), text.length < fuel →
    (dialect = .guarded → levels + depth ≤ nestingLimit) → Ends rest →
    readValue dialect fuel depth (text ++ rest) = .ok (value, rest)
  begins : ∃ c others, text = c :: others ∧ isSpace c = false ∧ c ≠ ']'
  unbroken : style.indent = none → ∀ c ∈ text, 0x20 ≤ c.toNat

def IsGap (gap : List Char) : Prop := ∀ c ∈ gap, isSpace c = true

theorem skipSpace_of_gap {gap : List Char} (isGap : IsGap gap) (rest : List Char) :
    skipSpace (gap ++ rest) = skipSpace rest := List.dropWhile_append_of_pos isGap

theorem skipSpace_of_begins {text : List Char}
    (begins : ∃ c others, text = c :: others ∧ isSpace c = false ∧ c ≠ ']') (rest : List Char) :
    skipSpace (text ++ rest) = text ++ rest := by
  obtain ⟨c, others, rfl, printed, -⟩ := begins
  simp [skipSpace, printed]

/-- What stands in front of a closing bracket ends a number. -/
theorem ends_of_gap {gap : List Char} (isGap : IsGap gap) {rest : List Char} (ends : Ends rest) :
    Ends (gap ++ rest) := by
  cases gap with
  | nil => exact ends
  | cons first others =>
      rintro c ⟨⟩
      exact .inr (.inr (.inr (isGap first List.mem_cons_self)))

/-- What separates the items of a container that is so many levels deep. -/
def Style.gap (style : Style) (depth : Nat) : List Char :=
  match style.indent with
  | none => []
  | some width => '\n' :: List.replicate (depth * width) ' '

theorem isGap_gap (style : Style) (depth : Nat) : IsGap (style.gap depth) := by
  unfold Style.gap
  split
  · exact nofun
  · intro c member
    rcases List.mem_cons.mp member with rfl | blank
    · rfl
    · rw [List.eq_of_mem_replicate blank]
      rfl

theorem gap_of_compact (compact : style.indent = none) (depth : Nat) : style.gap depth = [] := by
  unfold Style.gap
  rw [compact]

/-- What follows the colon of an entry. -/
def Style.afterColon (style : Style) : List Char := if style.indent.isSome then [' '] else []

theorem toList_colon (style : Style) : style.colon.toList = ':' :: style.afterColon := by
  unfold Style.colon Style.afterColon
  split <;> rfl

theorem isGap_afterColon (style : Style) : IsGap style.afterColon := by
  unfold Style.afterColon
  split
  · exact List.forall_mem_singleton.mpr rfl
  · exact nofun

theorem begins_intercalate {text : List Char} {property : Char → Prop}
    (begins : ∃ c others, text = c :: others ∧ property c) (separator : List Char)
    (texts : List (List Char)) :
    ∃ c others, separator.intercalate (text :: texts) = c :: others ∧ property c := by
  obtain ⟨c, others, rfl, holds⟩ := begins
  cases texts with
  | nil => exact ⟨c, others, List.intercalate_singleton, holds⟩
  | cons next texts => exact ⟨c, _, List.intercalate_cons_cons, holds⟩

theorem mem_intercalate {c : Char} {separator : List Char} {texts : List (List Char)}
    (member : c ∈ separator.intercalate texts) : c ∈ separator ∨ ∃ text ∈ texts, c ∈ text := by
  induction texts with
  | nil => cases member
  | cons text texts ih =>
      cases texts with
      | nil => exact .inr ⟨text, List.mem_cons_self, by simpa using member⟩
      | cons next texts =>
          rw [List.intercalate_cons_cons, List.mem_append, List.mem_append] at member
          rcases member with (first | between) | later
          · exact .inr ⟨text, List.mem_cons_self, first⟩
          · exact .inl between
          · rcases ih later with between | ⟨other, known, inside⟩
            · exact .inl between
            · exact .inr ⟨other, List.mem_cons_of_mem _ known, inside⟩

theorem conveys_null (levels : Nat) : Conveys style dialect levels .null "null".toList where
  reads fuel depth rest enough _ _ := by
    obtain ⟨fuel, rfl⟩ := Nat.exists_eq_succ_of_ne_zero (Nat.ne_zero_of_lt enough)
    rfl
  begins := ⟨'n', _, rfl, rfl, by decide⟩
  unbroken _ := by simp

theorem conveys_bool (levels : Nat) (b : Bool) :
    Conveys style dialect levels (.bool b) (if b then "true" else "false").toList where
  reads fuel depth rest enough _ _ := by
    obtain ⟨fuel, rfl⟩ := Nat.exists_eq_succ_of_ne_zero (Nat.ne_zero_of_lt enough)
    cases b <;> rfl
  begins := by
    cases b
    · exact ⟨'f', _, rfl, rfl, by decide⟩
    · exact ⟨'t', _, rfl, rfl, by decide⟩
  unbroken _ := by
    cases b with
    | false => simp
    | true => simp

theorem conveys_text (levels : Nat) (s : String) :
    Conveys style dialect levels (.text s) (writeText style.asciiOnly s).toList where
  reads fuel depth rest enough _ _ := by
    obtain ⟨fuel, rfl⟩ := Nat.exists_eq_succ_of_ne_zero (Nat.ne_zero_of_lt enough)
    rw [String.length_toList] at enough
    obtain ⟨inner, quoted, reads⟩ :=
      readText_writeText style.asciiOnly s _ (Nat.le_succ_of_le enough.le) rest
    rw [quoted, List.cons_append, readValue, reads]
    rfl
  begins := ⟨'"', _, toList_writeText _ s, rfl, by decide⟩
  unbroken _ := unbroken_writeText _ s

theorem conveys_number (levels : Nat) {negative : Bool} {whole : List Char}
    {fraction : Option (List Char)} {exponent : Option (Bool × List Char)}
    (parts : AreParts whole fraction exponent)
    (fits : FitsWhole dialect negative whole.length) :
    Conveys style dialect levels (numberValue negative whole fraction exponent)
      (numberText negative whole fraction exponent) where
  reads fuel depth rest enough _ ends := by
    obtain ⟨fuel, rfl⟩ := Nat.exists_eq_succ_of_ne_zero (Nat.ne_zero_of_lt enough)
    exact readValue_number parts fits ends fuel depth
  begins := by
    cases whole with
    | nil => exact absurd rfl parts.inWhole.1
    | cons first others =>
        have isDigit := parts.inWhole.2 first List.mem_cons_self
        cases negative with
        | true => exact ⟨'-', _, rfl, rfl, by decide⟩
        | false =>
            refine ⟨first, _, rfl, ?_, ?_⟩
            · cases space : isSpace first with
              | false => rfl
              | true => rcases isSpace_cases space with rfl | rfl | rfl | rfl <;> cases isDigit
            · rintro rfl
              cases isDigit
  unbroken _ := by
    intro c member
    simp only [numberText, List.mem_append] at member
    rcases member with sign | inWhole | inFraction | inExponent
    · cases negative <;> simp [signPart] at sign
      subst sign
      decide
    · exact unbroken_of_digits parts.inWhole c inWhole
    · cases fraction with
      | none => cases inFraction
      | some digits =>
          rcases List.mem_cons.mp inFraction with rfl | inside
          · decide
          · exact unbroken_of_digits (parts.inFraction digits rfl) c inside
    · cases exponent with
      | none => cases inExponent
      | some exponent =>
          obtain ⟨negative, digits⟩ := exponent
          rcases List.mem_cons.mp inExponent with rfl | later
          · decide
          rcases List.mem_cons.mp later with sign | inside
          · cases negative <;> subst sign <;> decide
          · exact unbroken_of_digits (parts.inExponent negative digits rfl) c inside

section Containers

variable {levels : Nat} {gap last : List Char}

/-- The reader takes joined items up to the closing bracket. -/
theorem readItems_conveyed {items : List Value} {texts : List (List Char)}
    (conveyed : List.Forall₂ (Conveys style dialect levels) items texts) (nonempty : items ≠ [])
    (isGap : IsGap gap) (isLast : IsGap last) (fuel : Nat) {depth : Nat}
    (enough : ((',' :: gap).intercalate texts).length + 1 < fuel)
    (shallow : dialect = .guarded → levels + depth ≤ nestingLimit) (rest : List Char) :
    readItems dialect fuel depth ((',' :: gap).intercalate texts ++ (last ++ ']' :: rest)) =
      .ok (items, rest) := by
  induction conveyed generalizing fuel with
  | nil => exact absurd rfl nonempty
  | @cons item text items texts first others ih =>
      obtain ⟨fuel, rfl⟩ := Nat.exists_eq_succ_of_ne_zero (Nat.ne_zero_of_lt enough)
      cases others with
      | nil =>
          rw [List.intercalate_singleton] at enough ⊢
          have reads := first.reads fuel depth (last ++ ']' :: rest) (by omega) shallow
            (ends_of_gap isLast (by rintro c ⟨⟩; decide))
          rw [readItems, reads]
          simp only [bind, Except.bind, skipSpace_of_gap isLast]
          rfl
      | @cons next nextText items texts second others =>
          rw [List.intercalate_cons_cons, List.length_append, List.length_append,
            List.length_cons] at enough
          have following :=
            skipSpace_of_begins (begins_intercalate second.begins (',' :: gap) texts)
              (last ++ ']' :: rest)
          have reads := first.reads fuel depth
            (',' :: (gap ++
              ((',' :: gap).intercalate (nextText :: texts) ++ (last ++ ']' :: rest))))
            (by omega) shallow (by rintro c ⟨⟩; decide)
          have remaining := ih (List.cons_ne_nil _ _) fuel (by omega)
          rw [List.intercalate_cons_cons, List.append_assoc, List.append_assoc,
            List.cons_append, readItems, reads]
          change (readItems dialect fuel depth (skipSpace _)).bind _ = _
          rw [skipSpace_of_gap isGap, following, remaining]
          rfl

/-- The text of an entry: its key, a colon and the text of its value. -/
def ConveysEntry (style : Style) (dialect : Dialect) (levels : Nat) (entry : String × Value)
    (text : List Char) : Prop :=
  ∃ inner, Conveys style dialect levels entry.2 inner ∧
    text = (writeText style.asciiOnly entry.1).toList ++ ':' :: (style.afterColon ++ inner)

theorem insertEntry_of_not_mem {key : String} {value : Value} {record : Record}
    (new : key ∉ record.map Prod.fst) :
    Value.insertEntry key value record = record ++ [(key, value)] := by
  induction record with
  | nil => rfl
  | cons entry record ih =>
      obtain ⟨k, v⟩ := entry
      rw [List.map_cons, List.mem_cons, not_or] at new
      have other : (k == key) = false := by simpa using Ne.symm new.1
      rw [Value.insertEntry, other, ih new.2]
      rfl

theorem ConveysEntry.begins_quote {entry : String × Value} {text : List Char}
    (conveys : ConveysEntry style dialect levels entry text) :
    ∃ c others, text = c :: others ∧ c = '"' := by
  obtain ⟨inner, -, rfl⟩ := conveys
  rw [toList_writeText]
  exact ⟨'"', _, rfl, rfl⟩

theorem ConveysEntry.begins {entry : String × Value} {text : List Char}
    (conveys : ConveysEntry style dialect levels entry text) :
    ∃ c others, text = c :: others ∧ isSpace c = false ∧ c ≠ ']' := by
  obtain ⟨c, others, begins, rfl⟩ := conveys.begins_quote
  exact ⟨'"', others, begins, rfl, by decide⟩

theorem ConveysEntry.unbroken (compact : style.indent = none) {entry : String × Value}
    {text : List Char} (conveys : ConveysEntry style dialect levels entry text) :
    ∀ c ∈ text, 0x20 ≤ c.toNat := by
  obtain ⟨inner, conveys, rfl⟩ := conveys
  have noGap : style.afterColon = [] := by
    unfold Style.afterColon
    rw [compact]
    rfl
  rw [noGap]
  intro c member
  rcases List.mem_append.mp member with inKey | later
  · exact unbroken_writeText _ entry.1 c inKey
  · rcases List.mem_cons.mp later with rfl | inValue
    · decide
    · exact conveys.unbroken compact c inValue

/-- An entry is read with its key, and what follows its value decides whether it is the last. -/
theorem readEntries_entry {key : String} {value : Value} {inner : List Char}
    (conveys : Conveys style dialect levels value inner) (isLast : IsGap last) (fuel : Nat)
    {depth : Nat} (enough : (writeText style.asciiOnly key).length + inner.length < fuel)
    (shallow : dialect = .guarded → levels + depth ≤ nestingLimit) {seen : Record}
    (new : key ∉ seen.map Prod.fst) (rest : List Char) :
    readEntries dialect (fuel + 1) depth seen
        ((writeText style.asciiOnly key).toList ++
          ':' :: (style.afterColon ++ (inner ++ (last ++ '\x7d' :: rest)))) =
      .ok (seen ++ [(key, value)], rest) ∧
    readEntries dialect (fuel + 1) depth seen
        ((writeText style.asciiOnly key).toList ++
          ':' :: (style.afterColon ++ (inner ++ ',' :: rest))) =
      readEntries dialect fuel depth (seen ++ [(key, value)]) (skipSpace rest) := by
  have keyRead (after : List Char) := readText_writeText style.asciiOnly key (fuel + 1) (by omega)
    (':' :: (style.afterColon ++ (inner ++ after)))
  have colon (after : List Char) : skipSpace (':' :: after) = ':' :: after := rfl
  have inValue (after : List Char) :
      skipSpace (style.afterColon ++ (inner ++ after)) = inner ++ after := by
    rw [skipSpace_of_gap (isGap_afterColon style), skipSpace_of_begins conveys.begins]
  constructor
  · obtain ⟨quoted, opened, read⟩ := keyRead (last ++ '\x7d' :: rest)
    have valueRead := conveys.reads fuel depth (last ++ '\x7d' :: rest) (by omega) shallow
      (ends_of_gap isLast (by rintro c ⟨⟩; decide))
    rw [opened, List.cons_append, readEntries, read]
    simp only [demand, bind, Except.bind, colon, inValue, valueRead,
      insertEntry_of_not_mem new, skipSpace_of_gap isLast]
    rfl
  · obtain ⟨quoted, opened, read⟩ := keyRead (',' :: rest)
    have valueRead := conveys.reads fuel depth (',' :: rest) (by omega) shallow
      (by rintro c ⟨⟩; decide)
    rw [opened, List.cons_append, readEntries, read]
    simp only [demand, bind, Except.bind, colon, inValue, valueRead,
      insertEntry_of_not_mem new]
    rfl

/-- The reader takes joined entries up to the closing brace. -/
theorem readEntries_conveyed {record : Record} {texts : List (List Char)}
    (conveyed : List.Forall₂ (ConveysEntry style dialect levels) record texts)
    (nonempty : record ≠ []) (isGap : IsGap gap) (isLast : IsGap last)
    (fuel : Nat) {depth : Nat} (enough : ((',' :: gap).intercalate texts).length + 1 < fuel)
    (shallow : dialect = .guarded → levels + depth ≤ nestingLimit) (seen : Record)
    (distinct : ((seen ++ record).map Prod.fst).Nodup) (rest : List Char) :
    readEntries dialect fuel depth seen
        ((',' :: gap).intercalate texts ++ (last ++ '\x7d' :: rest)) =
      .ok (seen ++ record, rest) := by
  induction conveyed generalizing fuel seen with
  | nil => exact absurd rfl nonempty
  | @cons entry text record texts first others ih =>
      obtain ⟨fuel, rfl⟩ := Nat.exists_eq_succ_of_ne_zero (Nat.ne_zero_of_lt enough)
      obtain ⟨key, value⟩ := entry
      obtain ⟨inner, conveys, rfl⟩ := first
      have new : key ∉ seen.map Prod.fst := by
        rw [List.map_append, List.map_cons, List.nodup_append] at distinct
        exact fun known => distinct.2.2 key known key List.mem_cons_self rfl
      have size : ((writeText style.asciiOnly key).toList ++
          ':' :: (style.afterColon ++ inner)).length =
          (writeText style.asciiOnly key).length + 1 + style.afterColon.length + inner.length := by
        simp only [List.length_append, List.length_cons, String.length_toList]
        omega
      cases others with
      | nil =>
          rw [List.intercalate_singleton] at enough ⊢
          have reads := readEntries_entry conveys isLast fuel (by dsimp only at enough; omega)
            shallow new rest
          rw [List.append_assoc, List.cons_append, List.append_assoc]
          exact reads.1
      | @cons next nextText record texts second others =>
          rw [List.intercalate_cons_cons, List.length_append, List.length_append,
            List.length_cons] at enough
          have following :=
            skipSpace_of_begins (begins_intercalate second.begins (',' :: gap) texts)
              (last ++ '\x7d' :: rest)
          have remaining := ih (List.cons_ne_nil _ _) fuel (by omega)
            (seen ++ [(key, value)]) (by simpa using distinct)
          have reads := readEntries_entry conveys isLast fuel (by dsimp only at enough; omega)
            shallow new
            (gap ++ ((',' :: gap).intercalate (nextText :: texts) ++ (last ++ '\x7d' :: rest)))
          rw [skipSpace_of_gap isGap, following, remaining] at reads
          rw [List.intercalate_cons_cons, List.append_assoc, List.append_assoc, List.append_assoc,
            List.cons_append, List.append_assoc, List.cons_append, reads.2, List.append_assoc,
            List.singleton_append]

theorem enter_of_lt {depth : Nat} (inside : dialect = .guarded → depth < nestingLimit) :
    enter dialect depth = .ok () := by
  cases dialect with
  | plain => rfl
  | guarded =>
      rw [enter, if_neg]
      simpa using inside rfl

theorem unbroken_bracketed {α : Type} {carries : α → List Char → Prop} {items : List α}
    {texts : List (List Char)} (conveyed : List.Forall₂ carries items texts)
    (unbroken : ∀ {item text}, carries item text → ∀ c ∈ text, 0x20 ≤ c.toNat)
    {opening closing : Char} (opens : 0x20 ≤ opening.toNat) (closes : 0x20 ≤ closing.toNat) :
    ∀ c ∈ opening :: ([','].intercalate texts ++ [closing]), 0x20 ≤ c.toNat := by
  have each : ∀ text ∈ texts, ∀ c ∈ text, 0x20 ≤ c.toNat := by
    induction conveyed with
    | nil => exact nofun
    | cons first _ ih => exact List.forall_mem_cons.mpr ⟨unbroken first, ih⟩
  intro c member
  simp only [List.mem_cons, List.mem_append, List.not_mem_nil, or_false] at member
  rcases member with rfl | inside | rfl
  · exact opens
  · rcases mem_intercalate inside with comma | ⟨text, known, inText⟩
    · obtain rfl := List.mem_singleton.mp comma
      decide
    · exact each text known c inText
  · exact closes

theorem conveys_emptyList (levels : Nat) :
    Conveys style dialect levels (.list []) "[]".toList where
  reads fuel depth rest enough _ _ := by
    obtain ⟨fuel, rfl⟩ := Nat.exists_eq_succ_of_ne_zero (Nat.ne_zero_of_lt enough)
    rfl
  begins := ⟨'[', _, rfl, rfl, by decide⟩
  unbroken _ := by simp

theorem conveys_emptyMap (levels : Nat) :
    Conveys style dialect levels (.map []) "\x7b\x7d".toList where
  reads fuel depth rest enough _ _ := by
    obtain ⟨fuel, rfl⟩ := Nat.exists_eq_succ_of_ne_zero (Nat.ne_zero_of_lt enough)
    rfl
  begins := ⟨'\x7b', _, rfl, rfl, by decide⟩
  unbroken _ := by simp

/-- The text of a container that is not empty. -/
def containerText (style : Style) (depth : Nat) (opening closing : Char)
    (texts : List (List Char)) : List Char :=
  opening :: (style.gap (depth + 1) ++
    ((',' :: style.gap (depth + 1)).intercalate texts ++ (style.gap depth ++ [closing])))

theorem containerText_of_compact (compact : style.indent = none) (depth : Nat)
    (opening closing : Char) (texts : List (List Char)) :
    containerText style depth opening closing texts =
      opening :: ([','].intercalate texts ++ [closing]) := by
  unfold containerText
  rw [gap_of_compact compact, gap_of_compact compact]
  rfl

theorem conveys_list {items : List Value} {texts : List (List Char)}
    (conveyed : List.Forall₂ (Conveys style dialect levels) items texts) (nonempty : items ≠ [])
    (level : Nat) :
    Conveys style dialect (levels + 1) (.list items)
      (containerText style level '[' ']' texts) where
  reads fuel depth rest enough shallow _ := by
    obtain ⟨fuel, rfl⟩ := Nat.exists_eq_succ_of_ne_zero (Nat.ne_zero_of_lt enough)
    simp only [containerText, List.length_cons, List.length_append, List.length_nil] at enough
    have reads := readItems_conveyed conveyed nonempty (isGap_gap style (level + 1))
      (isGap_gap style level) fuel (by omega)
      (fun guarded => by have := shallow guarded; omega :
        dialect = .guarded → levels + (depth + 1) ≤ nestingLimit) rest
    cases conveyed with
    | nil => exact absurd rfl nonempty
    | @cons item text items texts first others =>
        obtain ⟨c, inner, joined, printed, goesOn⟩ := begins_intercalate first.begins
          (',' :: style.gap (level + 1)) texts
        have skipped : skipSpace (c :: (inner ++ (style.gap level ++ ']' :: rest))) =
            c :: (inner ++ (style.gap level ++ ']' :: rest)) := by
          simp [skipSpace, printed]
        rw [joined, List.cons_append] at reads
        rw [containerText, joined]
        simp only [List.cons_append, List.append_assoc, List.nil_append]
        rw [readValue, skipSpace_of_gap (isGap_gap style (level + 1)), skipped]
        split
        · rename_i same
          exact absurd (List.cons.inj same).1 goesOn
        · rw [enter_of_lt fun guarded => by have := shallow guarded; omega]
          simp only [bind, Except.bind, reads]
          rfl
  begins := ⟨'[', _, rfl, rfl, by decide⟩
  unbroken compact := by
    rw [containerText_of_compact compact]
    exact unbroken_bracketed conveyed (fun conveys => conveys.unbroken compact) (by decide)
      (by decide)

theorem conveys_map {record : Record} {texts : List (List Char)}
    (conveyed : List.Forall₂ (ConveysEntry style dialect levels) record texts)
    (nonempty : record ≠ []) (distinct : (record.map Prod.fst).Nodup) (level : Nat) :
    Conveys style dialect (levels + 1) (.record record)
      (containerText style level '\x7b' '\x7d' texts) where
  reads fuel depth rest enough shallow _ := by
    obtain ⟨fuel, rfl⟩ := Nat.exists_eq_succ_of_ne_zero (Nat.ne_zero_of_lt enough)
    simp only [containerText, List.length_cons, List.length_append, List.length_nil] at enough
    have reads := readEntries_conveyed conveyed nonempty (isGap_gap style (level + 1))
      (isGap_gap style level) fuel (by omega)
      (fun guarded => by have := shallow guarded; omega :
        dialect = .guarded → levels + (depth + 1) ≤ nestingLimit) [] distinct rest
    cases conveyed with
    | nil => exact absurd rfl nonempty
    | @cons entry text record texts first others =>
        obtain ⟨c, inner, joined, rfl⟩ := @begins_intercalate _ (· = '"')
          first.begins_quote (',' :: style.gap (level + 1)) texts
        have skipped : skipSpace ('"' :: (inner ++ (style.gap level ++ '\x7d' :: rest))) =
            '"' :: (inner ++ (style.gap level ++ '\x7d' :: rest)) := rfl
        rw [joined, List.cons_append] at reads
        rw [containerText, joined]
        simp only [List.cons_append, List.append_assoc, List.nil_append]
        rw [readValue, skipSpace_of_gap (isGap_gap style (level + 1)), skipped]
        change (enter dialect depth).bind (fun _ => (readEntries dialect fuel (depth + 1) []
          ('"' :: (inner ++ (style.gap level ++ '\x7d' :: rest)))).bind fun read =>
            .ok (Value.record read.1, read.2)) = _
        rw [enter_of_lt fun guarded => by have := shallow guarded; omega, reads]
        rfl
  begins := ⟨'\x7b', _, rfl, rfl, by decide⟩
  unbroken compact := by
    rw [containerText_of_compact compact]
    exact unbroken_bracketed conveyed (fun conveys => conveys.unbroken compact) (by decide)
      (by decide)

end Containers

end Values

/-- JSON data whose containers are nested at most so many levels deep: whole numbers are no longer
than the reader takes them, and a mapping has a key once. -/
inductive IsData : Nat → Value → Prop where
  | null {levels : Nat} : IsData levels .null
  | bool {levels : Nat} {b : Bool} : IsData levels (.bool b)
  | int {levels : Nat} {n : Int} (short : (toString n).length ≤ Numeral.digitLimit) :
      IsData levels (.int n)
  | float {levels : Nat} {x : Double} (finite : x.isFinite = true) : IsData levels (.float x)
  | text {levels : Nat} {s : String} : IsData levels (.text s)
  | emptyList {levels : Nat} : IsData levels (.list [])
  | list {levels : Nat} {items : List Value} (inner : ∀ item ∈ items, IsData levels item) :
      IsData (levels + 1) (.list items)
  | emptyMap {levels : Nat} : IsData levels (.map [])
  | map {levels : Nat} {record : Record} (distinct : (record.map Prod.fst).Nodup)
      (inner : ∀ entry ∈ record, IsData levels entry.2) : IsData (levels + 1) (.record record)

/-- A whole number that a reader of the dialect takes. -/
def FitsInt (dialect : Dialect) (n : Int) : Prop :=
  FitsWhole dialect (decide (n < 0)) (Nat.toDigits 10 n.natAbs).length

/-- Data that a reader of the dialect gives back. Guarded texts have a limit for the nesting of
containers. A member of the enumeration of field kinds is a text. -/
inductive IsPortable (dialect : Dialect) : Nat → Value → Prop where
  | null {levels : Nat} : IsPortable dialect levels .null
  | bool {levels : Nat} {b : Bool} : IsPortable dialect levels (.bool b)
  | int {levels : Nat} {n : Int} (fits : FitsInt dialect n) : IsPortable dialect levels (.int n)
  | float {levels : Nat} {x : Double} (finite : x.isFinite = true) :
      IsPortable dialect levels (.float x)
  | text {levels : Nat} {s : String} : IsPortable dialect levels (.text s)
  | fieldKind {levels : Nat} {kind : FieldKind} : IsPortable dialect levels (.fieldKind kind)
  | list {inside levels : Nat} {items : List Value}
      (deeper : dialect = .guarded → items ≠ [] → inside < levels)
      (inner : ∀ item ∈ items, IsPortable dialect inside item) :
      IsPortable dialect levels (.list items)
  | map {inside levels : Nat} {entries : List (Value × Value)}
      (named : ∀ entry ∈ entries, entry.1.asText?.isSome = true)
      (distinct : (entries.map fun entry => entry.1.textOf).Nodup)
      (deeper : dialect = .guarded → entries ≠ [] → inside < levels)
      (inner : ∀ entry ∈ entries, IsPortable dialect inside entry.2) :
      IsPortable dialect levels (.map entries)

section Data

variable {style : Style} {dialect : Dialect} {levels : Nat}

mutual

/-- A value with the texts that the members of the enumeration of field kinds are. -/
def plainTexts : Value → Value
  | .fieldKind kind => .text kind.name
  | .list items => .list (plainItems items)
  | .map entries => .map (plainEntries entries)
  | value => value

def plainItems : List Value → List Value
  | [] => []
  | item :: rest => plainTexts item :: plainItems rest

def plainEntries : List (Value × Value) → List (Value × Value)
  | [] => []
  | (key, value) :: rest => (plainTexts key, plainTexts value) :: plainEntries rest

end

theorem plainItems_eq_map (items : List Value) : plainItems items = items.map plainTexts := by
  induction items with
  | nil => rfl
  | cons item rest ih => rw [plainItems, ih, List.map_cons]

theorem plainTexts_of_asText {key : Value} {name : String} (named : key.asText? = some name) :
    plainTexts key = .text name := by
  cases key with
  | text => exact congrArg Value.text (Option.some.inj named)
  | fieldKind => exact congrArg Value.text (Option.some.inj named)
  | _ => cases named

theorem plainEntries_eq_record {entries : List (Value × Value)}
    (named : ∀ entry ∈ entries, entry.1.asText?.isSome = true) :
    Value.map (plainEntries entries) =
      .record (entries.map fun entry => (entry.1.textOf, plainTexts entry.2)) := by
  have each : plainEntries entries = entries.map fun entry =>
      (Value.text entry.1.textOf, plainTexts entry.2) := by
    induction entries with
    | nil => rfl
    | cons entry rest ih =>
        obtain ⟨first, others⟩ := List.forall_mem_cons.mp named
        obtain ⟨name, isName⟩ := Option.isSome_iff_exists.mp first
        rw [plainEntries, ih others, List.map_cons, plainTexts_of_asText isName, Value.textOf,
          isName, Option.getD_some]
  rw [each, Value.record, List.map_map]
  rfl

theorem named_record {record : Record} :
    ∀ entry ∈ record.map fun (key, value) => (Value.text key, value),
      entry.1.asText?.isSome = true := by
  intro entry member
  obtain ⟨_, -, rfl⟩ := List.mem_map.mp member
  rfl

theorem plainTexts_record (record : Record) :
    plainTexts (.record record) =
      .record (record.map fun entry => (entry.1, plainTexts entry.2)) := by
  rw [Value.record, plainTexts, plainEntries_eq_record named_record, List.map_map]
  rfl

theorem plainTexts_list_of_plain {items : List Value}
    (plain : ∀ item ∈ items, plainTexts item = item) : plainTexts (.list items) = .list items := by
  rw [plainTexts, plainItems_eq_map, List.map_congr_left plain, List.map_id']

theorem plainTexts_record_of_plain {record : Record}
    (plain : ∀ entry ∈ record, plainTexts entry.2 = entry.2) :
    plainTexts (.record record) = .record record := by
  have same : record.map (fun entry => (entry.1, plainTexts entry.2)) = record.map id :=
    List.map_congr_left fun entry member => Prod.ext rfl (plain entry member)
  rw [plainTexts_record, same, List.map_id]

theorem isPortable_record {inside : Nat} {record : Record}
    (distinct : (record.map Prod.fst).Nodup) (deeper : dialect = .guarded → inside < levels)
    (inner : ∀ entry ∈ record, IsPortable dialect inside entry.2) :
    IsPortable dialect levels (.record record) := by
  refine .map named_record ?_ (fun guarded _ => deeper guarded) ?_
  · rw [List.map_map]
    exact distinct
  · intro entry member
    obtain ⟨found, known, rfl⟩ := List.mem_map.mp member
    exact inner found known

theorem Conveys.weaken {value : Value} {text : List Char}
    (conveys : Conveys style dialect levels value text) {more : Nat}
    (deeper : dialect = .guarded → levels ≤ more) : Conveys style dialect more value text where
  reads fuel depth rest enough shallow :=
    conveys.reads fuel depth rest enough fun guarded => by
      have := deeper guarded
      have := shallow guarded
      omega
  begins := conveys.begins
  unbroken := conveys.unbroken

theorem conveys_int {n : Int} (fits : FitsInt dialect n) :
    Conveys style dialect levels (.int n) (toString n).toList := by
  rw [toList_int, ← numberValue_int n]
  exact conveys_number levels (areParts_toDigits n.natAbs) fits

theorem conveys_float (readable : IsReadable style.numbers) {x : Double}
    (finite : x.isFinite = true) :
    Conveys style dialect levels (.float x) (style.numbers.render x).toList := by
  obtain ⟨negative, whole, fraction, exponent, parts, fits, written, value⟩ :=
    render_parts readable finite
  rw [written, ← value]
  exact conveys_number levels parts (fits dialect)

theorem writeItems_conveyed {items : List Value}
    (each : ∀ item ∈ items, ∀ depth, ∃ text, writeAt style depth item = .ok text ∧
      Conveys style dialect levels (plainTexts item) text.toList) (depth : Nat) :
    ∃ texts, writeItems style depth items = .ok texts ∧
      List.Forall₂ (Conveys style dialect levels) (items.map plainTexts)
        (texts.map String.toList) := by
  induction items with
  | nil => exact ⟨[], rfl, .nil⟩
  | cons item items ih =>
      obtain ⟨text, written, conveys⟩ := each item List.mem_cons_self depth
      obtain ⟨texts, allWritten, allConvey⟩ :=
        ih fun item member => each item (List.mem_cons_of_mem _ member)
      refine ⟨text :: texts, ?_, .cons conveys allConvey⟩
      rw [writeItems, written, allWritten]
      rfl

theorem keyText_of_named {key : Value} (named : key.asText?.isSome = true) :
    keyText style key = .ok key.textOf := by
  cases key with
  | text => rfl
  | fieldKind => rfl
  | _ => cases named

theorem writeEntries_conveyed {entries : List (Value × Value)}
    (named : ∀ entry ∈ entries, entry.1.asText?.isSome = true)
    (each : ∀ entry ∈ entries, ∀ depth, ∃ text, writeAt style depth entry.2 = .ok text ∧
      Conveys style dialect levels (plainTexts entry.2) text.toList) (depth : Nat) :
    ∃ texts, writeEntries style depth entries = .ok texts ∧
      List.Forall₂ (ConveysEntry style dialect levels)
        (entries.map fun entry => (entry.1.textOf, plainTexts entry.2))
        (texts.map String.toList) := by
  induction entries with
  | nil => exact ⟨[], rfl, .nil⟩
  | cons entry entries ih =>
      obtain ⟨key, value⟩ := entry
      obtain ⟨keyNamed, othersNamed⟩ := List.forall_mem_cons.mp named
      obtain ⟨text, written, conveys⟩ := each (key, value) List.mem_cons_self depth
      obtain ⟨texts, allWritten, allConvey⟩ := ih othersNamed
        fun entry member => each entry (List.mem_cons_of_mem _ member)
      refine ⟨(writeText style.asciiOnly key.textOf ++ style.colon ++ text) :: texts, ?_,
        .cons ⟨text.toList, conveys, ?_⟩ allConvey⟩
      · rw [writeEntries, keyText_of_named keyNamed]
        simp only [bind, Except.bind, written, allWritten]
        rfl
      · rw [String.toList_append, String.toList_append, List.append_assoc, toList_colon]
        rfl

theorem toList_bracketed (depth : Nat) (opening closing : Char) {items : List String}
    (nonempty : items ≠ []) :
    (bracketed style depth (String.singleton opening) (String.singleton closing) items).toList =
      containerText style depth opening closing (items.map String.toList) := by
  have some : items.isEmpty = false := by simpa using nonempty
  unfold bracketed containerText Style.gap
  rw [some, if_neg Bool.false_ne_true]
  cases style.indent with
  | none => simp [String.toList_append, String.toList_intercalate]
  | some width => simp [String.toList_append, String.toList_intercalate]

/-- A mapping that is not empty is written from brace to brace. -/
theorem map_conveyed {entries : List (Value × Value)}
    (named : ∀ entry ∈ entries, entry.1.asText?.isSome = true)
    (distinct : (entries.map fun entry => entry.1.textOf).Nodup)
    (each : ∀ entry ∈ entries, ∀ depth, ∃ text, writeAt style depth entry.2 = .ok text ∧
      Conveys style dialect levels (plainTexts entry.2) text.toList)
    (nonempty : entries ≠ []) (depth : Nat) :
    ∃ text inner, writeAt style depth (.map entries) = .ok text ∧
      text.toList = '\x7b' :: (inner ++ ['\x7d']) ∧
      Conveys style dialect (levels + 1) (plainTexts (.map entries)) text.toList := by
  obtain ⟨texts, written, conveyed⟩ := writeEntries_conveyed named each (depth + 1)
  have some : texts ≠ [] := by
    rintro rfl
    cases entries with
    | nil => exact nonempty rfl
    | cons => cases conveyed
  have chars : (bracketed style depth "\x7b" "\x7d" texts).toList = _ :=
    toList_bracketed depth '\x7b' '\x7d' some
  refine ⟨bracketed style depth "\x7b" "\x7d" texts,
    style.gap (depth + 1) ++ ((',' :: style.gap (depth + 1)).intercalate
      (texts.map String.toList) ++ style.gap depth), ?_, ?_, ?_⟩
  · rw [writeAt, written]
    rfl
  · rw [chars, containerText]
    simp only [List.append_assoc]
  · rw [chars, plainTexts, plainEntries_eq_record named]
    exact conveys_map conveyed (by simpa using nonempty) (by rwa [List.map_map]) depth

/-- Portable data has a text that gives it back. -/
theorem IsPortable.conveyed (readable : IsReadable style.numbers) {value : Value}
    (portable : IsPortable dialect levels value) (depth : Nat) :
    ∃ text, writeAt style depth value = .ok text ∧
      Conveys style dialect levels (plainTexts value) text.toList := by
  induction portable generalizing depth with
  | null => exact ⟨_, rfl, conveys_null _⟩
  | bool => exact ⟨_, rfl, conveys_bool _ _⟩
  | int fits => exact ⟨_, rfl, conveys_int fits⟩
  | float finite => exact ⟨_, rfl, conveys_float readable finite⟩
  | text => exact ⟨_, rfl, conveys_text _ _⟩
  | fieldKind => exact ⟨_, rfl, conveys_text _ _⟩
  | @list inside levels items deeper _ ih =>
      obtain ⟨texts, written, conveyed⟩ := writeItems_conveyed ih (depth + 1)
      refine ⟨bracketed style depth "[" "]" texts, ?_, ?_⟩
      · rw [writeAt, written]
        rfl
      · rw [plainTexts, plainItems_eq_map]
        cases items with
        | nil =>
            obtain rfl : texts = [] := by
              cases texts with
              | nil => rfl
              | cons => cases conveyed
            exact conveys_emptyList _
        | cons item items =>
            have some : texts ≠ [] := by
              rintro rfl
              cases conveyed
            have chars : (bracketed style depth "[" "]" texts).toList = _ :=
              toList_bracketed depth '[' ']' some
            rw [chars]
            exact (conveys_list conveyed (List.cons_ne_nil _ _) depth).weaken
              fun guarded => deeper guarded (List.cons_ne_nil _ _)
  | @map inside levels entries named distinct deeper _ ih =>
      cases entries with
      | nil => exact ⟨_, rfl, conveys_emptyMap _⟩
      | cons entry entries =>
          obtain ⟨text, -, written, -, conveys⟩ :=
            map_conveyed named distinct ih (List.cons_ne_nil _ _) depth
          exact ⟨text, written,
            conveys.weaken fun guarded => deeper guarded (List.cons_ne_nil _ _)⟩

theorem fitsInt_of_short {n : Int} (short : (toString n).length ≤ Numeral.digitLimit) :
    FitsInt .guarded n := by
  rw [← String.length_toList, toList_int] at short
  unfold FitsInt FitsWhole
  generalize decide (n < 0) = negative at short ⊢
  cases negative with
  | false => simpa [numberText, signPart, fractionPart, exponentPart] using short
  | true => simpa [numberText, signPart, fractionPart, exponentPart, Nat.add_comm] using short

/-- Data is portable, and has no members of the enumeration. -/
theorem IsData.portable {value : Value} (data : IsData levels value) :
    IsPortable .guarded levels value ∧ plainTexts value = value := by
  induction data with
  | null => exact ⟨.null, rfl⟩
  | bool => exact ⟨.bool, rfl⟩
  | int short => exact ⟨.int (fitsInt_of_short short), rfl⟩
  | float finite => exact ⟨.float finite, rfl⟩
  | text => exact ⟨.text, rfl⟩
  | @emptyList levels =>
      exact ⟨@IsPortable.list _ 0 levels [] (fun _ some => absurd rfl some) nofun, rfl⟩
  | @emptyMap levels =>
      exact ⟨@IsPortable.map _ 0 levels [] nofun .nil (fun _ some => absurd rfl some) nofun, rfl⟩
  | @list levels items _ ih =>
      exact ⟨.list (fun _ _ => Nat.lt_succ_self levels) fun item member => (ih item member).1,
        plainTexts_list_of_plain fun item member => (ih item member).2⟩
  | @map levels record distinct _ ih =>
      exact ⟨isPortable_record distinct (fun _ => Nat.lt_succ_self levels)
          fun entry member => (ih entry member).1,
        plainTexts_record_of_plain fun entry member => (ih entry member).2⟩

/-- A record of data that is not empty is written from brace to brace. -/
theorem record_conveyed (readable : IsReadable style.numbers) {record : Record}
    (data : ∀ entry ∈ record, IsData levels entry.2) (distinct : (record.map Prod.fst).Nodup)
    (nonempty : record ≠ []) (depth : Nat) :
    ∃ text inner, writeAt style depth (.record record) = .ok text ∧
      text.toList = '\x7b' :: (inner ++ ['\x7d']) ∧
      Conveys style .guarded (levels + 1) (.record record) text.toList := by
  have each : ∀ entry ∈ record.map fun (key, value) => (Value.text key, value), ∀ depth,
      ∃ text, writeAt style depth entry.2 = .ok text ∧
        Conveys style .guarded levels (plainTexts entry.2) text.toList := by
    intro entry member
    obtain ⟨found, known, rfl⟩ := List.mem_map.mp member
    exact (data found known).portable.1.conveyed readable
  obtain ⟨text, inner, written, braced, conveys⟩ :=
    map_conveyed named_record (by rwa [List.map_map]) each (by simpa using nonempty) depth
  have same : plainTexts (.record record) = .record record := (IsData.map distinct data).portable.2
  exact ⟨text, inner, written, braced, same ▸ conveys⟩

theorem mapM_id {ε α : Type} {step : α → Except ε α} {items : List α}
    (each : ∀ item ∈ items, step item = .ok item) : items.mapM step = .ok items := by
  induction items with
  | nil => rfl
  | cons item items ih =>
      rw [List.mapM_cons, each item List.mem_cons_self,
        ih fun item member => each item (List.mem_cons_of_mem _ member)]
      rfl

/-- Data is plain already. -/
theorem IsData.plain {levels : Nat} {value : Value} (data : IsData levels value) {depth : Nat}
    (shallow : levels < depth) : plainWithin depth value = .ok value := by
  induction data generalizing depth with
  | @list levels items _ ih =>
      obtain ⟨depth, rfl⟩ := Nat.exists_eq_succ_of_ne_zero (Nat.ne_zero_of_lt shallow)
      have inner := mapM_id fun item member => ih item member (Nat.lt_of_succ_lt_succ shallow)
      rw [plainWithin, inner]
      rfl
  | @map levels record _ _ ih =>
      obtain ⟨depth, rfl⟩ := Nat.exists_eq_succ_of_ne_zero (Nat.ne_zero_of_lt shallow)
      rw [Value.record, plainWithin, mapM_id]
      · rfl
      · rintro item member
        obtain ⟨⟨key, value⟩, known, rfl⟩ := List.mem_map.mp member
        simp only [ih (key, value) known (Nat.lt_of_succ_lt_succ shallow)]
        rfl
  | _ =>
      obtain ⟨depth, rfl⟩ := Nat.exists_eq_succ_of_ne_zero (Nat.ne_zero_of_lt shallow)
      rfl

/-- A text that conveys a value is read as that value. -/
theorem Conveys.read {value : Value} {text : String}
    (conveys : Conveys style dialect levels value text.toList)
    (shallow : dialect = .guarded → levels ≤ nestingLimit) : read dialect text = .ok value := by
  have reads := conveys.reads _ 0 [] (Nat.lt_succ_self _) shallow nofun
  have begins := skipSpace_of_begins conveys.begins []
  rw [List.append_nil] at reads begins
  unfold Json.read
  simp only [begins, reads, bind, Except.bind]
  rfl

/-- What is written of portable data is read as the same data. -/
theorem IsPortable.read_write (readable : IsReadable style.numbers) {value : Value}
    (portable : IsPortable dialect levels value)
    (shallow : dialect = .guarded → levels ≤ nestingLimit) :
    ∃ text, write style value = .ok text ∧ read dialect text = .ok (plainTexts value) ∧
      (style.indent = none → ∀ c ∈ text.toList, 0x20 ≤ c.toNat) := by
  obtain ⟨text, written, conveys⟩ := portable.conveyed readable 0
  exact ⟨text, written, conveys.read shallow, conveys.unbroken⟩

end Data

end WebHarvest.Json
