import WebHarvest.Json.Reader
import WebHarvest.Json.Writer
import WebHarvest.Proofs.Number.Digits
import WebHarvest.Proofs.Number.Shortest

/-!
# Numbers within JSON

A number is written as a sign, a whole part, and perhaps a fraction and an exponent. The reader
finds these parts again, and the number that they stand for is the one that was written. This holds
for both dialects, and for every layout that leaves a point or an exponent in the text of a
floating-point number.
-/

set_option autoImplicit false

namespace WebHarvest.Json

/-- A text may stand in front of these characters without becoming part of a longer number. -/
def Ends (rest : List Char) : Prop :=
  ∀ c, rest.head? = some c → c = ',' ∨ c = ']' ∨ c = '\x7d' ∨ isSpace c = true

theorem isSpace_cases {c : Char} (space : isSpace c = true) :
    c = ' ' ∨ c = '\t' ∨ c = '\n' ∨ c = '\r' := by
  simpa only [isSpace, Bool.or_eq_true, beq_iff_eq, or_assoc] using space

section Parts

def fractionPart : Option (List Char) → List Char
  | none => []
  | some digits => '.' :: digits

def exponentPart : Option (Bool × List Char) → List Char
  | none => []
  | some (negative, digits) => 'e' :: (if negative then '-' else '+') :: digits

def exponentValue : Option (Bool × List Char) → Int
  | none => 0
  | some (negative, digits) =>
      if negative then -(Numeral.decimalValue digits : Int) else Numeral.decimalValue digits

def IsDigits (digits : List Char) : Prop := digits ≠ [] ∧ ∀ c ∈ digits, c.isDigit = true

/-- The parts of a number as a text of JSON has them. -/
structure AreParts (whole : List Char) (fraction : Option (List Char))
    (exponent : Option (Bool × List Char)) : Prop where
  inWhole : IsDigits whole
  plain : whole.head? = some '0' → whole = ['0']
  inFraction : ∀ digits, fraction = some digits → IsDigits digits
  inExponent : ∀ negative digits, exponent = some (negative, digits) → IsDigits digits

def numberValue (negative : Bool) (whole : List Char) (fraction : Option (List Char))
    (exponent : Option (Bool × List Char)) : Value :=
  match fraction, exponent with
  | none, none =>
      .int (if negative then -(Numeral.decimalValue whole : Int) else Numeral.decimalValue whole)
  | fraction, exponent =>
      .float (Double.ofDecimal negative (Numeral.decimalValue (whole ++ fraction.getD []))
        (exponentValue exponent - (fraction.getD []).length))

theorem isDigits_toDigits (n : Nat) : IsDigits (Nat.toDigits 10 n) :=
  ⟨Numeral.toDigits_ne_nil n, fun _ member => Numeral.isDigit_of_mem_toDigits member⟩

theorem readDigits_append {digits rest : List Char} (areDigits : IsDigits digits)
    (stops : ∀ c, rest.head? = some c → c.isDigit = false) :
    readDigits (digits ++ rest) = some (digits, rest) := by
  have kept : (digits ++ rest).takeWhile Char.isDigit = digits := by
    rw [List.takeWhile_append_of_pos areDigits.2]
    cases rest with
    | nil => simp
    | cons c rest => simp [stops c rfl]
  have left : (digits ++ rest).dropWhile Char.isDigit = rest := by
    rw [List.dropWhile_append_of_pos areDigits.2]
    cases rest with
    | nil => rfl
    | cons c rest => simp [stops c rfl]
  have some : digits.isEmpty = false := by simpa using areDigits.1
  simp [readDigits, kept, left, some]

theorem readWhole_append {whole rest : List Char} (areDigits : IsDigits whole)
    (plain : whole.head? = some '0' → whole = ['0'])
    (stops : ∀ c, rest.head? = some c → c.isDigit = false) :
    readWhole (whole ++ rest) = some (whole, rest) := by
  cases whole with
  | nil => exact absurd rfl areDigits.1
  | cons first others =>
      by_cases zero : first = '0'
      · subst zero
        obtain rfl : others = [] := by simpa using plain rfl
        cases rest with
        | nil => rfl
        | cons c rest => simp [readWhole, stops c rfl]
      · rw [← readDigits_append areDigits stops, List.cons_append, readWhole]
        rintro after ⟨⟩
        exact zero rfl

theorem readFraction_append {fraction : Option (List Char)} {rest : List Char}
    (areDigits : ∀ digits, fraction = some digits → IsDigits digits)
    (stops : ∀ c, rest.head? = some c → c.isDigit = false ∧ c ≠ '.') :
    readFraction (fractionPart fraction ++ rest) = some (fraction, rest) := by
  cases fraction with
  | none =>
      cases rest with
      | nil => rfl
      | cons c rest =>
          change readFraction (c :: rest) = _
          rw [readFraction]
          rintro after ⟨⟩
          exact (stops _ rfl).2 rfl
  | some digits =>
      change (readDigits (digits ++ rest)).map _ = _
      rw [readDigits_append (areDigits digits rfl) fun c head => (stops c head).1]
      rfl

theorem readExponent_append {exponent : Option (Bool × List Char)} {rest : List Char}
    (areDigits : ∀ negative digits, exponent = some (negative, digits) → IsDigits digits)
    (stops : ∀ c, rest.head? = some c → c.isDigit = false ∧ c ≠ 'e' ∧ c ≠ 'E') :
    readExponent (exponentPart exponent ++ rest) =
      some (exponent.map fun exponent => exponentValue (some exponent), rest) := by
  cases exponent with
  | none =>
      cases rest with
      | nil => rfl
      | cons c rest =>
          change readExponent (c :: rest) = _
          simp [readExponent, stops c rfl]
  | some exponent =>
      obtain ⟨negative, digits⟩ := exponent
      have reads := readDigits_append (areDigits negative digits rfl)
        fun c head => (stops c head).1
      cases negative with
      | false =>
          change (readDigits (digits ++ rest)).map _ = _
          rw [reads]
          rfl
      | true =>
          change (readDigits (digits ++ rest)).map _ = _
          rw [reads]
          rfl

/-- A whole part is not too long for a dialect. The sign counts in guarded texts. -/
def FitsWhole (dialect : Dialect) (negative : Bool) (length : Nat) : Prop :=
  length + (if dialect = .guarded ∧ negative = true then 1 else 0) ≤ Numeral.digitLimit

theorem fitsWhole_of_short {dialect : Dialect} {negative : Bool} {length : Nat}
    (short : length ≤ 16) : FitsWhole dialect negative length := by
  have limit : Numeral.digitLimit = 4300 := rfl
  unfold FitsWhole
  split <;> omega

theorem checkWhole_of_fits {dialect : Dialect} {negative : Bool} {whole : List Char}
    (fits : FitsWhole dialect negative whole.length) (isInteger : Bool) :
    checkWhole dialect negative whole isInteger = .ok () := by
  unfold FitsWhole at fits
  cases dialect with
  | plain =>
      have inside : (isInteger && decide (Numeral.digitLimit < whole.length)) = false := by
        rw [Bool.and_eq_false_iff, decide_eq_false_iff_not]
        exact .inr (by simpa using fits)
      rw [checkWhole, inside]
      rfl
  | guarded =>
      rw [checkWhole, if_neg]
      simpa using fits

theorem readNumber_append {dialect : Dialect} {negative : Bool} {whole : List Char}
    {fraction : Option (List Char)} {exponent : Option (Bool × List Char)}
    (parts : AreParts whole fraction exponent)
    (fits : FitsWhole dialect negative whole.length) {rest : List Char}
    (ends : Ends rest) :
    readNumber dialect negative (whole ++ (fractionPart fraction ++
        (exponentPart exponent ++ rest))) =
      .ok (numberValue negative whole fraction exponent, rest) := by
  have last : ∀ c, rest.head? = some c →
      c.isDigit = false ∧ c ≠ 'e' ∧ c ≠ 'E' ∧ c ≠ '.' := by
    intro c head
    rcases ends c head with rfl | rfl | rfl | space
    · decide
    · decide
    · decide
    · rcases isSpace_cases space with rfl | rfl | rfl | rfl <;> decide
  have afterFraction : ∀ c, (exponentPart exponent ++ rest).head? = some c →
      c.isDigit = false ∧ c ≠ '.' := by
    cases exponent with
    | none => exact fun c head => ⟨(last c head).1, (last c head).2.2.2⟩
    | some exponent =>
        rintro c ⟨⟩
        decide
  have afterWhole : ∀ c, (fractionPart fraction ++ (exponentPart exponent ++ rest)).head? =
      some c → c.isDigit = false := by
    cases fraction with
    | none => exact fun c head => (afterFraction c head).1
    | some digits =>
        rintro c ⟨⟩
        decide
  unfold readNumber
  rw [readWhole_append parts.inWhole parts.plain afterWhole]
  simp only [demand, bind, Except.bind]
  rw [readFraction_append parts.inFraction afterFraction]
  simp only
  rw [readExponent_append parts.inExponent
    fun c head => ⟨(last c head).1, (last c head).2.1, (last c head).2.2.1⟩]
  simp only [checkWhole_of_fits fits]
  cases fraction <;> cases exponent <;> rfl

def signPart (negative : Bool) : List Char := if negative then ['-'] else []

def numberText (negative : Bool) (whole : List Char) (fraction : Option (List Char))
    (exponent : Option (Bool × List Char)) : List Char :=
  signPart negative ++ (whole ++ (fractionPart fraction ++ exponentPart exponent))

theorem areParts_toDigits (n : Nat) : AreParts (Nat.toDigits 10 n) none none where
  inWhole := isDigits_toDigits n
  plain zero := by
    cases n with
    | zero => rfl
    | succ n => exact absurd zero (Numeral.head_toDigits_ne_zero (Nat.succ_pos n))
  inFraction := nofun
  inExponent := nofun

/-- A whole number is written as the digits of its size, with its sign in front. -/
theorem toList_int (n : Int) :
    (toString n).toList = numberText (decide (n < 0)) (Nat.toDigits 10 n.natAbs) none none := by
  cases n with
  | ofNat m =>
      have written : (toString (Int.ofNat m)).toList = Nat.toDigits 10 m :=
        Numeral.toList_toString m
      have positive : decide (Int.ofNat m < 0) = false :=
        decide_eq_false (Int.not_lt.mpr (Int.natCast_nonneg m))
      rw [written, positive]
      exact (List.append_nil _).symm
  | negSucc m =>
      have written : (toString (Int.negSucc m)).toList = '-' :: Nat.toDigits 10 (m + 1) := by
        rw [← Numeral.toList_toString]
        exact String.toList_append
      rw [written, decide_eq_true (Int.negSucc_lt_zero m)]
      exact congrArg _ (List.append_nil _).symm

theorem numberValue_int (n : Int) :
    numberValue (decide (n < 0)) (Nat.toDigits 10 n.natAbs) none none = .int n := by
  rw [numberValue, Numeral.decimalValue_toDigits]
  split
  · rename_i negative
    rw [decide_eq_true_eq] at negative
    rw [Int.ofNat_natAbs_of_nonpos negative.le, neg_neg]
  · rename_i positive
    rw [decide_eq_true_eq, Int.not_lt] at positive
    rw [Int.natAbs_of_nonneg positive]

section Scalars

variable (dialect : Dialect)

theorem readScalar_digit {c : Char} (isDigit : c.isDigit = true) (cs : List Char) :
    readScalar dialect (c :: cs) = readNumber dialect false (c :: cs) := by
  rw [readScalar] <;> rintro others ⟨⟩ <;> cases isDigit

theorem readScalar_minus {c : Char} (isDigit : c.isDigit = true) (cs : List Char) :
    readScalar dialect ('-' :: c :: cs) = readNumber dialect true (c :: cs) := by
  have notInfinity : c ≠ 'I' := by
    rintro rfl
    cases isDigit
  rw [readScalar]
  rintro others ⟨⟩
  exact notInfinity rfl

theorem readValue_scalar {c : Char} (isNumeric : c = '-' ∨ c.isDigit = true) (fuel depth : Nat)
    (cs : List Char) :
    readValue dialect (fuel + 1) depth (c :: cs) = readScalar dialect (c :: cs) := by
  rw [readValue] <;> rintro others ⟨⟩ <;> revert isNumeric <;> decide

end Scalars

theorem readValue_number {dialect : Dialect} {negative : Bool} {whole : List Char}
    {fraction : Option (List Char)} {exponent : Option (Bool × List Char)}
    (parts : AreParts whole fraction exponent)
    (fits : FitsWhole dialect negative whole.length) {rest : List Char}
    (ends : Ends rest) (fuel depth : Nat) :
    readValue dialect (fuel + 1) depth (numberText negative whole fraction exponent ++ rest) =
      .ok (numberValue negative whole fraction exponent, rest) := by
  have reads := readNumber_append parts fits ends
  cases whole with
  | nil => exact absurd rfl parts.inWhole.1
  | cons first others =>
      have isDigit := parts.inWhole.2 first List.mem_cons_self
      cases negative with
      | false =>
          simp only [numberText, signPart, Bool.false_eq_true, if_false, List.nil_append,
            List.cons_append, List.append_assoc] at reads ⊢
          rw [readValue_scalar _ (.inr isDigit), readScalar_digit _ isDigit, reads]
      | true =>
          simp only [numberText, signPart, if_true, List.nil_append, List.cons_append,
            List.append_assoc] at reads ⊢
          rw [readValue_scalar _ (.inl rfl), readScalar_minus _ isDigit, reads]

theorem unbroken_of_digits {digits : List Char} (areDigits : IsDigits digits) :
    ∀ c ∈ digits, 0x20 ≤ c.toNat := by
  intro c member
  have isDigit := areDigits.2 c member
  simp only [Char.isDigit, Bool.and_eq_true, decide_eq_true_eq] at isDigit
  exact Nat.le_trans (by decide) (UInt32.le_iff_toNat_le.mp isDigit.1)

end Parts

section Floats

/-- Texts in this layout are texts of floating-point numbers, with a whole part that every dialect
takes. -/
structure IsReadable (layout : Double.Layout) : Prop where
  whole : layout.whole = ".0"
  largest : layout.largest ≤ 16

theorem isReadable_ledgerLayout : IsReadable Double.ledgerLayout := ⟨rfl, Int.le_refl 16⟩

theorem isReadable_cookieLayout : IsReadable Double.cookieLayout := ⟨rfl, Int.le_refl 16⟩

/-- Parts that stand for the decimal `digits * 10 ^ power`, though perhaps with zeros behind its
digits and a smaller exponent. -/
structure Spells (whole : List Char) (fraction : Option (List Char))
    (exponent : Option (Bool × List Char)) (digits : Nat) (power : Int) : Prop where
  parts : AreParts whole fraction exponent
  short : whole.length ≤ 16
  notWhole : fraction ≠ none ∨ exponent ≠ none
  value : ∃ zeros : Nat, (zeros = 0 ∨ (zeros : Int) = power + 1) ∧
    Numeral.decimalValue (whole ++ fraction.getD []) = digits * 10 ^ zeros ∧
    exponentValue exponent - (fraction.getD []).length = power - zeros

theorem isDigits_append {front back : List Char} (areDigits : IsDigits front)
    (others : ∀ c ∈ back, c.isDigit = true) : IsDigits (front ++ back) := by
  refine ⟨by simp [areDigits.1], fun c member => ?_⟩
  rcases List.mem_append.mp member with inFront | inBack
  · exact areDigits.2 c inFront
  · exact others c inBack

theorem isDigit_zeros {n : Nat} : ∀ c ∈ List.replicate n '0', c.isDigit = true := by
  intro c member
  rw [List.eq_of_mem_replicate member]
  rfl

theorem decimalValue_append_zeros (cs : List Char) (zeros : Nat) :
    Numeral.decimalValue (cs ++ List.replicate zeros '0') =
      Numeral.decimalValue cs * 10 ^ zeros := by
  induction zeros with
  | zero => simp
  | succ zeros ih =>
      rw [List.replicate_succ', ← List.append_assoc, Numeral.decimalValue, List.foldl_append]
      change 10 * Numeral.decimalValue (cs ++ List.replicate zeros '0') + 0 = _
      rw [ih, pow_succ]
      ring

theorem toList_padded (width n : Nat) :
    (Double.padded width n).toList =
      List.replicate (width - (toString n).length) '0' ++ Nat.toDigits 10 n := by
  unfold Double.padded Double.zeros
  dsimp only
  rw [String.toList_append, String.toList_ofList, Numeral.toList_toString]

theorem isDigits_padded (width n : Nat) : IsDigits (Double.padded width n).toList := by
  rw [toList_padded]
  refine ⟨List.append_ne_nil_of_right_ne_nil _ (Numeral.toDigits_ne_nil n), fun c member => ?_⟩
  rcases List.mem_append.mp member with zero | digit
  · exact isDigit_zeros c zero
  · exact Numeral.isDigit_of_mem_toDigits digit

theorem decimalValue_padded (width n : Nat) :
    Numeral.decimalValue (Double.padded width n).toList = n := by
  rw [toList_padded, Numeral.decimalValue_zeros_append, Numeral.decimalValue_toDigits]

section Layouts

variable {digits : List Char} {n : Nat} {power : Int}

theorem spells_scientific {first : Char} {others : List Char}
    (areDigits : IsDigits (first :: others))
    (value : Numeral.decimalValue (first :: others) = n)
    (fraction : Option (List Char)) (joined : others = fraction.getD [])
    (nonempty : ∀ digits, fraction = some digits → digits ≠ []) (width : Nat) :
    Spells [first] fraction
      (some (decide ((others.length : Int) + power < 0),
        (Double.padded width ((others.length : Int) + power).natAbs).toList)) n power where
  parts :=
    { inWhole := ⟨List.cons_ne_nil _ _, fun c member =>
        areDigits.2 c (List.mem_cons.mpr (.inl (List.mem_singleton.mp member)))⟩
      plain := by
        rintro ⟨⟩
        rfl
      inFraction := by
        rintro digits rfl
        subst joined
        exact ⟨nonempty _ rfl, fun c member => areDigits.2 c (List.mem_cons_of_mem _ member)⟩
      inExponent := by
        rintro negative digits ⟨⟩
        exact isDigits_padded _ _ }
  short := by simp
  notWhole := .inr nofun
  value := by
    refine ⟨0, .inl rfl, ?_, ?_⟩
    · rw [← joined, pow_zero, mul_one]
      exact value
    · rw [← joined]
      simp only [exponentValue, decimalValue_padded]
      split <;> rename_i sign <;> simp only [decide_eq_true_eq] at sign <;> omega

theorem spells_small (areDigits : IsDigits digits) (value : Numeral.decimalValue digits = n)
    {zeros : Nat} (placed : (digits.length : Int) + power = -zeros) :
    Spells ['0'] (some (List.replicate zeros '0' ++ digits)) none n power where
  parts :=
    { inWhole := ⟨List.cons_ne_nil _ _, List.forall_mem_singleton.mpr rfl⟩
      plain := fun _ => rfl
      inFraction := by
        rintro fraction ⟨⟩
        refine ⟨by simp [areDigits.1], fun c member => ?_⟩
        rcases List.mem_append.mp member with zero | inside
        · exact isDigit_zeros c zero
        · exact areDigits.2 c inside
      inExponent := nofun }
  short := by decide
  notWhole := .inl nofun
  value := by
    refine ⟨0, .inl rfl, ?_, ?_⟩
    · rw [pow_zero, mul_one, ← value]
      exact Numeral.decimalValue_zeros_append (zeros + 1) digits
    · simp only [exponentValue, Option.getD_some, List.length_append, List.length_replicate]
      push_cast
      omega

theorem spells_whole (areDigits : IsDigits digits) (value : Numeral.decimalValue digits = n)
    (leading : digits.head? ≠ some '0') {zeros : Nat} (short : digits.length + zeros ≤ 16)
    (placed : power = zeros) :
    Spells (digits ++ List.replicate zeros '0') (some ['0']) none n power where
  parts :=
    { inWhole := isDigits_append areDigits isDigit_zeros
      plain := by
        intro head
        cases digits with
        | nil => exact absurd rfl areDigits.1
        | cons first others => exact absurd head leading
      inFraction := by
        rintro fraction ⟨⟩
        exact ⟨List.cons_ne_nil _ _, List.forall_mem_singleton.mpr rfl⟩
      inExponent := nofun }
  short := by simpa using short
  notWhole := .inl nofun
  value := by
    refine ⟨zeros + 1, .inr (by omega), ?_, ?_⟩
    · rw [Option.getD_some, List.append_assoc,
        show List.replicate zeros '0' ++ ['0'] = List.replicate (zeros + 1) '0' from
          List.replicate_succ'.symm, decimalValue_append_zeros, value]
    · simp only [exponentValue, Option.getD_some, List.length_singleton]
      push_cast
      omega

theorem spells_fraction (areDigits : IsDigits digits) (value : Numeral.decimalValue digits = n)
    (leading : digits.head? ≠ some '0') {point : Nat} (positive : 0 < point) (short : point ≤ 16)
    (inside : point < digits.length) (placed : (digits.length : Int) + power = point) :
    Spells (digits.take point) (some (digits.drop point)) none n power where
  parts :=
    { inWhole := ⟨by simp [areDigits.1, positive.ne'], fun c member =>
        areDigits.2 c (List.mem_of_mem_take member)⟩
      plain := by
        intro head
        rw [List.head?_take, if_neg positive.ne'] at head
        exact absurd head leading
      inFraction := by
        rintro fraction ⟨⟩
        refine ⟨?_, fun c member => areDigits.2 c (List.mem_of_mem_drop member)⟩
        simpa using inside
      inExponent := nofun }
  short := by
    rw [List.length_take]
    omega
  notWhole := .inl nofun
  value := by
    refine ⟨0, .inl rfl, ?_, ?_⟩
    · rw [Option.getD_some, List.take_append_drop, pow_zero, mul_one]
      exact value
    · simp only [exponentValue, Option.getD_some, List.length_drop]
      push_cast [Nat.cast_sub inside.le]
      omega

end Layouts

theorem toList_mark (power : Int) :
    (if power < 0 then "e-" else "e+").toList = ['e', if power < 0 then '-' else '+'] := by
  split <;> rfl

variable {layout : Double.Layout}

/-- What a layout makes of a decimal spells it. -/
theorem place_spells (readable : IsReadable layout) {d : Double.Decimal} (positive : 0 < d.digits) :
    ∃ whole fraction exponent, Spells whole fraction exponent d.digits d.exponent ∧
      (layout.place d).toList =
        whole ++ (fractionPart fraction ++ exponentPart exponent) := by
  have areDigits := isDigits_toDigits d.digits
  have value := Numeral.decimalValue_toDigits d.digits
  have leading := Numeral.head_toDigits_ne_zero positive
  have written := Numeral.toList_toString d.digits
  have length : (toString d.digits).length = (Nat.toDigits 10 d.digits).length := by
    rw [← String.length_toList, written]
  unfold Double.Layout.place
  dsimp only
  rw [written, length]
  generalize shown : Nat.toDigits 10 d.digits = digits at *
  have largest := readable.largest
  split
  · cases digits with
    | nil => exact absurd rfl areDigits.1
    | cons first others =>
        have power : ((first :: others).length : Int) + d.exponent - 1 =
            others.length + d.exponent := by
          rw [List.length_cons]
          push_cast
          omega
        rw [power]
        cases others with
        | nil =>
            refine ⟨_, _, _, spells_scientific areDigits value none rfl nofun
              layout.exponentWidth, ?_⟩
            simp [toList_mark, String.toList_append, fractionPart, exponentPart]
        | cons second others =>
            refine ⟨_, _, _, spells_scientific areDigits value (some (second :: others)) rfl
              (by rintro digits ⟨⟩; exact List.cons_ne_nil _ _) layout.exponentWidth, ?_⟩
            simp [toList_mark, String.toList_append, fractionPart, exponentPart]
  · rename_i positional
    simp only [Bool.or_eq_true, decide_eq_true_eq, not_or, not_lt, not_le] at positional
    split
    · rename_i small
      obtain ⟨zeros, placed⟩ : ∃ zeros : Nat, (digits.length : Int) + d.exponent = -zeros :=
        ⟨((digits.length : Int) + d.exponent).natAbs, by omega⟩
      refine ⟨_, _, _, spells_small areDigits value placed, ?_⟩
      rw [placed, neg_neg, Int.toNat_natCast]
      simp [Double.zeros, fractionPart, exponentPart, String.toList_append, shown]
    · rename_i notSmall
      split
      · rename_i whole
        obtain ⟨zeros, placed⟩ : ∃ zeros : Nat, d.exponent = zeros :=
          ⟨d.exponent.natAbs, by omega⟩
        refine ⟨_, _, _, spells_whole areDigits value leading (by omega) placed, ?_⟩
        have count : ((digits.length : Int) + d.exponent - digits.length).toNat = zeros := by
          omega
        rw [count]
        simp [Double.zeros, fractionPart, exponentPart, String.toList_append, shown,
          readable.whole]
      · rename_i inside
        obtain ⟨point, placed⟩ : ∃ point : Nat, (digits.length : Int) + d.exponent = point :=
          ⟨((digits.length : Int) + d.exponent).natAbs, by omega⟩
        refine ⟨_, _, _, spells_fraction areDigits value leading (by omega)
          (by omega) (by omega) placed, ?_⟩
        rw [placed, Int.toNat_natCast]
        simp [fractionPart, exponentPart, String.toList_append]

theorem toList_render (readable : IsReadable layout) {x : Double} {negative : Bool} {m : Nat}
    {exponent : Int}
    (meaning : x.meaning = .finite negative m exponent) :
    (layout.render x).toList = signPart negative ++
      (if m = 0 then ['0', '.', '0']
      else (layout.place (Double.shortest m exponent)).toList) := by
  rw [Double.Layout.render, meaning]
  dsimp only
  rw [String.toList_append]
  congr 1
  · cases negative <;> rfl
  · by_cases zero : m = 0
    · rw [if_pos (beq_iff_eq.mpr zero), if_pos zero, readable.whole]
      rfl
    · rw [if_neg (by simpa using zero), if_neg zero]

/-- The text of a finite number spells a decimal that is read as that number. -/
theorem render_parts (readable : IsReadable layout) {x : Double} (finite : x.isFinite = true) :
    ∃ negative whole fraction exponent, AreParts whole fraction exponent ∧
      (∀ dialect, FitsWhole dialect negative whole.length) ∧
      (layout.render x).toList = numberText negative whole fraction exponent ∧
      numberValue negative whole fraction exponent = .float x := by
  unfold Double.isFinite at finite
  split at finite
  · rename_i negative m exponent meaning
    obtain ⟨format, same⟩ := Double.meaning_format meaning
    by_cases zero : m = 0
    · subst zero
      refine ⟨negative, ['0'], some ['0'], none, ⟨?_, fun _ => rfl, ?_, nofun⟩, ?_, ?_, ?_⟩
      · exact ⟨List.cons_ne_nil _ _, List.forall_mem_singleton.mpr rfl⟩
      · rintro digits ⟨⟩
        exact ⟨List.cons_ne_nil _ _, List.forall_mem_singleton.mpr rfl⟩
      · exact fun dialect => fitsWhole_of_short (by decide)
      · rw [toList_render readable meaning]
        rfl
      · have small : 0 < Nat.pow 2 52 := Nat.pow_pos (by decide)
        rw [← same, Double.pattern, if_pos small]
        rfl
    · have nonzero := Nat.pos_of_ne_zero zero
      obtain ⟨atLeast, atMost, holds⟩ := Double.shortest_holds format nonzero
      obtain ⟨whole, fraction, power, spells, placed⟩ :=
        place_spells readable (Double.digits_pos_of_holds nonzero holds)
      generalize chosen : Double.shortest m exponent = d at *
      obtain ⟨zeros, few, value, moved⟩ := spells.value
      refine ⟨negative, whole, fraction, power, spells.parts, ?_, ?_, ?_⟩
      · exact fun dialect => fitsWhole_of_short spells.short
      · rw [toList_render readable meaning, if_neg zero, chosen, placed]
        rfl
      · have reads := @Double.ofDecimal_eq m exponent format nonzero negative
          (d.digits * 10 ^ zeros) (d.exponent - zeros) (by omega) (by omega) ?_
        · rw [same] at reads
          have float : numberValue negative whole fraction power =
              .float (Double.ofDecimal negative
                (Numeral.decimalValue (whole ++ fraction.getD []))
                (exponentValue power - (fraction.getD []).length)) := by
            cases fraction with
            | some digits => rfl
            | none =>
                cases power with
                | some power => rfl
                | none => exact absurd spells.notWhole (by simp)
          rw [float, value, moved, reads]
        · have tens : (10 : ℚ) ≠ 0 := by norm_num
          have shifted : ((d.digits * 10 ^ zeros : Nat) : ℚ) * 10 ^ (d.exponent - zeros) =
              d.digits * 10 ^ d.exponent := by
            push_cast
            rw [zpow_sub₀ tens, zpow_natCast]
            field_simp
          rw [shifted]
          exact holds
  · cases finite

end Floats

end WebHarvest.Json
