import WebHarvest.Proofs.Json.Data
import WebHarvest.Proofs.Outcome

/-!
# Texts of ASCII only

A style that escapes what lies outside ASCII writes nothing else: every character of a text in it
is one of ASCII that prints, or ends a line. This holds of every value that has a text, data or not.
So neither the encoding of a file nor what it takes for the end of a line can change such a text.
-/

set_option autoImplicit false

namespace WebHarvest.Json

/-- A character of ASCII that prints, or the end of a line. -/
def isLegible (c : Char) : Bool := c == '\n' || (0x20 ≤ c.toNat && c.toNat < 0x7f)

def IsAscii (text : List Char) : Prop := ∀ c ∈ text, isLegible c = true

instance (text : List Char) : Decidable (IsAscii text) :=
  decidable_of_iff (text.all isLegible = true) List.all_eq_true

section Characters

theorem isLegible_of_bounds {c : Char} (least : 0x20 ≤ c.toNat) (most : c.toNat < 0x7f) :
    isLegible c = true := by
  simp [isLegible, least, most]

theorem isAscii_append {front back : List Char} :
    IsAscii (front ++ back) ↔ IsAscii front ∧ IsAscii back := List.forall_mem_append

theorem isAscii_cons {c : Char} {text : List Char} :
    IsAscii (c :: text) ↔ isLegible c = true ∧ IsAscii text :=
  List.forall_mem_cons

theorem isAscii_intercalate {separator : List Char} {texts : List (List Char)}
    (between : IsAscii separator) (each : ∀ text ∈ texts, IsAscii text) :
    IsAscii (separator.intercalate texts) := by
  intro c member
  rcases mem_intercalate member with inside | ⟨text, known, inside⟩
  · exact between c inside
  · exact each text known c inside

theorem isAscii_digits {digits : List Char} (areDigits : IsDigits digits) : IsAscii digits := by
  intro c member
  have isDigit := areDigits.2 c member
  simp only [Char.isDigit, Bool.and_eq_true, decide_eq_true_eq] at isDigit
  have least := UInt32.le_iff_toNat_le.mp isDigit.1
  have most := UInt32.le_iff_toNat_le.mp isDigit.2
  exact isLegible_of_bounds (Nat.le_trans (by decide) least) (Nat.lt_of_le_of_lt most (by decide))

theorem isAscii_hexPadded (width n : Nat) : IsAscii (Text.hexPadded width n) := by
  have digit : ∀ n < 16, IsAscii [Nat.digitChar n] := by decide
  induction width generalizing n with
  | zero => exact nofun
  | succ width ih => exact isAscii_append.mpr ⟨ih _, digit _ (Nat.mod_lt n (by decide))⟩

theorem isAscii_escapeChar (c : Char) : IsAscii (escapeChar c) := by
  have unit (n : Nat) : IsAscii (escapeUnit n) :=
    isAscii_append.mpr ⟨(by decide : IsAscii ['\\', 'u']), isAscii_hexPadded 4 n⟩
  unfold escapeChar
  split
  · exact unit _
  · exact isAscii_append.mpr ⟨unit _, unit _⟩

theorem isAscii_writeChar (c : Char) : IsAscii (writeChar true c) := by
  unfold writeChar
  split
  · rename_i quoted
    simp only [Bool.or_eq_true, beq_iff_eq] at quoted
    rcases quoted with rfl | rfl <;> decide
  repeat' split
  · decide
  · decide
  · decide
  · decide
  · decide
  · exact isAscii_escapeChar c
  · rename_i visible
    simp only [Bool.true_and, Bool.or_eq_true, decide_eq_true_eq, not_or, not_lt, not_le] at visible
    exact isAscii_cons.mpr ⟨isLegible_of_bounds visible.1 visible.2, nofun⟩

theorem isAscii_writeText (s : String) : IsAscii (writeText true s).toList := by
  rw [toList_writeText]
  refine isAscii_cons.mpr ⟨by decide, isAscii_append.mpr ⟨?_, by decide⟩⟩
  intro c member
  obtain ⟨written, -, inside⟩ := List.mem_flatMap.mp member
  exact isAscii_writeChar written c inside

theorem isAscii_numberText {negative : Bool} {whole : List Char}
    {fraction : Option (List Char)} {exponent : Option (Bool × List Char)}
    (parts : AreParts whole fraction exponent) :
    IsAscii (numberText negative whole fraction exponent) := by
  refine isAscii_append.mpr ⟨by cases negative <;> decide, isAscii_append.mpr
    ⟨isAscii_digits parts.inWhole, isAscii_append.mpr ⟨?_, ?_⟩⟩⟩
  · cases fraction with
    | none => exact nofun
    | some digits =>
        exact isAscii_cons.mpr ⟨by decide, isAscii_digits (parts.inFraction digits rfl)⟩
  · cases exponent with
    | none => exact nofun
    | some exponent =>
        obtain ⟨negative, digits⟩ := exponent
        refine isAscii_cons.mpr ⟨by decide, isAscii_cons.mpr ⟨by cases negative <;> decide, ?_⟩⟩
        exact isAscii_digits (parts.inExponent negative digits rfl)

theorem isAscii_int (n : Int) : IsAscii (toString n).toList := by
  rw [toList_int]
  exact isAscii_numberText (areParts_toDigits n.natAbs)

end Characters

/-- A style whose texts hold ASCII only. -/
structure Style.KeepsAscii (style : Style) : Prop where
  escapes : style.asciiOnly = true
  readable : IsReadable style.numbers
  named : ∀ name ∈ [style.numbers.nan, style.numbers.infinity, style.numbers.negativeInfinity],
    IsAscii name.toList

theorem keepsAscii_cookieStyle : cookieStyle.KeepsAscii :=
  ⟨rfl, isReadable_cookieLayout, by decide⟩

section Values

variable {style : Style}

theorem isAscii_render (keeps : style.KeepsAscii) (x : Double) :
    IsAscii (style.numbers.render x).toList := by
  cases finite : x.isFinite with
  | true =>
      obtain ⟨negative, whole, fraction, exponent, parts, -, written, -⟩ :=
        render_parts keeps.readable finite
      rw [written]
      exact isAscii_numberText parts
  | false =>
      obtain ⟨nan, infinity, negativeInfinity⟩ :
          IsAscii style.numbers.nan.toList ∧ IsAscii style.numbers.infinity.toList ∧
            IsAscii style.numbers.negativeInfinity.toList := by
        simpa only [List.forall_mem_cons, List.not_mem_nil, false_implies, implies_true, and_true]
          using keeps.named
      unfold Double.isFinite at finite
      unfold Double.Layout.render
      split
      · exact nan
      · split
        · exact negativeInfinity
        · exact infinity
      · rename_i meaning
        rw [meaning] at finite
        cases finite

theorem isAscii_gap (style : Style) (depth : Nat) : IsAscii (style.gap depth) := by
  unfold Style.gap
  split
  · exact nofun
  · refine isAscii_cons.mpr ⟨rfl, fun c member => ?_⟩
    rw [List.eq_of_mem_replicate member]
    decide

theorem isAscii_colon (style : Style) : IsAscii style.colon.toList := by
  unfold Style.colon
  split <;> decide

theorem isAscii_bracketed (depth : Nat) (opening closing : Char) {items : List String}
    (bounds : IsAscii [opening, closing]) (each : ∀ item ∈ items, IsAscii item.toList) :
    IsAscii (bracketed style depth (String.singleton opening) (String.singleton closing)
      items).toList := by
  obtain ⟨first, last⟩ := isAscii_cons.mp bounds
  by_cases empty : items = []
  · subst empty
    have bare : (bracketed style depth (String.singleton opening) (String.singleton closing)
        []).toList = [opening, closing] := by
      simp [bracketed]
    rw [bare]
    exact bounds
  · have gap := isAscii_gap style
    have separator : IsAscii (',' :: style.gap (depth + 1)) :=
      isAscii_cons.mpr ⟨by decide, gap (depth + 1)⟩
    have inside := isAscii_intercalate separator (List.forall_mem_map.mpr each)
    rw [toList_bracketed depth opening closing empty]
    exact isAscii_cons.mpr ⟨first, isAscii_append.mpr ⟨gap (depth + 1),
      isAscii_append.mpr ⟨inside, isAscii_append.mpr ⟨gap depth, last⟩⟩⟩⟩

-- The recursion is that of the writer: a value, the items of a container, its entries.
mutual

theorem isAscii_writeAt (keeps : style.KeepsAscii) (value : Value) {depth : Nat} {text : String}
    (written : writeAt style depth value = .ok text) : IsAscii text.toList := by
  have texts (s : String) : IsAscii (writeText style.asciiOnly s).toList := by
    rw [keeps.escapes]
    exact isAscii_writeText s
  cases value with
  | null =>
      cases written
      decide
  | bool b =>
      cases written
      cases b <;> decide
  | int n =>
      cases written
      exact isAscii_int n
  | float x =>
      cases written
      exact isAscii_render keeps x
  | text s =>
      cases written
      exact texts s
  | fieldKind kind =>
      cases written
      exact texts kind.name
  | list items =>
      obtain ⟨inner, itemsWritten, same⟩ := Outcome.bind_ok_iff.mp written
      obtain rfl := Except.ok.inj same
      exact isAscii_bracketed depth '[' ']' (by decide)
        (isAscii_writeItems keeps items itemsWritten)
  | tuple items =>
      obtain ⟨inner, itemsWritten, same⟩ := Outcome.bind_ok_iff.mp written
      obtain rfl := Except.ok.inj same
      exact isAscii_bracketed depth '[' ']' (by decide)
        (isAscii_writeItems keeps items itemsWritten)
  | map entries =>
      obtain ⟨inner, entriesWritten, same⟩ := Outcome.bind_ok_iff.mp written
      obtain rfl := Except.ok.inj same
      exact isAscii_bracketed depth '\x7b' '\x7d' (by decide)
        (isAscii_writeEntries keeps entries entriesWritten)
  | _ => cases written

theorem isAscii_writeItems (keeps : style.KeepsAscii) (items : List Value) {depth : Nat}
    {texts : List String} (written : writeItems style depth items = .ok texts) :
    ∀ text ∈ texts, IsAscii text.toList := by
  cases items with
  | nil =>
      cases written
      exact nofun
  | cons item rest =>
      obtain ⟨text, itemWritten, written⟩ := Outcome.bind_ok_iff.mp written
      obtain ⟨others, restWritten, same⟩ := Outcome.bind_ok_iff.mp written
      cases same
      exact List.forall_mem_cons.mpr
        ⟨isAscii_writeAt keeps item itemWritten, isAscii_writeItems keeps rest restWritten⟩

theorem isAscii_writeEntries (keeps : style.KeepsAscii) (entries : List (Value × Value))
    {depth : Nat} {texts : List String} (written : writeEntries style depth entries = .ok texts) :
    ∀ text ∈ texts, IsAscii text.toList := by
  cases entries with
  | nil =>
      cases written
      exact nofun
  | cons entry rest =>
      obtain ⟨key, value⟩ := entry
      obtain ⟨name, -, written⟩ := Outcome.bind_ok_iff.mp written
      obtain ⟨text, valueWritten, written⟩ := Outcome.bind_ok_iff.mp written
      obtain ⟨others, restWritten, same⟩ := Outcome.bind_ok_iff.mp written
      cases same
      refine List.forall_mem_cons.mpr ⟨?_, isAscii_writeEntries keeps rest restWritten⟩
      rw [String.toList_append, String.toList_append, keeps.escapes]
      exact isAscii_append.mpr
        ⟨isAscii_append.mpr ⟨isAscii_writeText name, isAscii_colon style⟩,
          isAscii_writeAt keeps value valueWritten⟩

end

end Values

end WebHarvest.Json
