import Mathlib.Data.List.Basic
import WebHarvest.Proofs.Number.Digits
import WebHarvest.Timestamp

/-!
# Timestamps read back

A time of the clock is written to a ledger line in a form that is read as the same time.
-/

set_option autoImplicit false

namespace WebHarvest

/-- A day of the calendar that a clock can show. -/
structure Date.IsDay (date : Date) : Prop where
  year : 1 ≤ date.year ∧ date.year ≤ 9999
  day : 1 ≤ date.day ∧ date.day ≤ Date.daysIn date.year date.month

/-- A time that a clock in universal time can show, to the microsecond. -/
structure Timestamp.IsClock (t : Timestamp) : Prop where
  date : t.date.IsDay
  hour : t.hour < 24
  minute : t.minute < 60
  second : t.second < 60
  micros : t.micros < 1000000
  offset : t.offset = some 0

namespace Timestamp

theorem toList_padded (width n : Nat) :
    (padded width n).toList =
      List.replicate (width - (Nat.toDigits 10 n).length) '0' ++ Nat.toDigits 10 n := by
  have length : (toString n).length = (Nat.toDigits 10 n).length := by
    rw [← String.length_toList, Numeral.toList_toString]
  unfold padded
  dsimp only
  rw [String.toList_append, String.toList_ofList, Numeral.toList_toString, length]

theorem length_padded {width n : Nat} (wide : 0 < width) (fits : n < 10 ^ width) :
    (padded width n).toList.length = width := by
  have short := (Nat.length_toDigits_le_iff (b := 10) (by decide) wide).mpr fits
  rw [toList_padded, List.length_append, List.length_replicate]
  omega

theorem isDigit_padded (width n : Nat) : ∀ c ∈ (padded width n).toList, c.isDigit = true := by
  rw [toList_padded]
  intro c member
  rcases List.mem_append.mp member with zero | digit
  · rw [List.eq_of_mem_replicate zero]
    rfl
  · exact Numeral.isDigit_of_mem_toDigits digit

theorem digits?_padded (width n : Nat) : Numeral.digits? (padded width n).toList = some n := by
  have all := List.all_eq_true.mpr (isDigit_padded width n)
  unfold Numeral.digits?
  rw [if_pos all, toList_padded, Numeral.decimalValue_zeros_append, Numeral.decimalValue_toDigits]

theorem byteChars_ascii {s : String} (ascii : ∀ c ∈ s.toList, c.toNat < 128) :
    byteChars s = s.toList := by
  unfold byteChars
  generalize s.toList = cs at ascii
  induction cs with
  | nil => rfl
  | cons c cs ih =>
      obtain ⟨first, others⟩ := List.forall_mem_cons.mp ascii
      have encoded : String.utf8EncodeChar c = [UInt8.ofNat c.toNat] :=
        if_pos (Nat.le_of_lt_succ first)
      have byte : (UInt8.ofNat c.toNat).toNat = c.toNat :=
        UInt8.toNat_ofNat_of_lt' (Nat.lt_trans first (by decide))
      rw [List.flatMap_cons, List.map_append, ih others, encoded, List.map_singleton, byte,
        Char.ofNat_toNat]
      rfl

theorem ascii_of_isDigit {c : Char} (isDigit : c.isDigit = true) : c.toNat < 128 := by
  simp only [Char.isDigit, Bool.and_eq_true, decide_eq_true_eq] at isDigit
  exact Nat.lt_of_le_of_lt (UInt32.le_iff_toNat_le.mp isDigit.2) (by decide)

theorem twoDigits_padded {n : Nat} (fits : n < 100) (rest : List Char) :
    twoDigits ((padded 2 n).toList ++ rest) = some (n, rest) := by
  obtain ⟨a, b, shown⟩ := List.length_eq_two.mp (length_padded (by decide : 0 < 2) fits)
  have value := digits?_padded 2 n
  rw [shown] at value ⊢
  simp only [twoDigits, List.cons_append, List.nil_append, value, Option.map_some]

theorem month_lt_of_day {year month : Nat} (some : 0 < Date.daysIn year month) : month < 100 := by
  by_contra large
  have none : Date.daysIn year month = 0 := by
    unfold Date.daysIn
    rw [if_neg (by simp; omega), if_neg (by simp; omega), if_neg (by simp; omega)]
  omega

theorem read_date {date : Date} (isDay : date.IsDay) (rest : List Char) :
    Date.read ((padded 4 date.year).toList ++ '-' :: ((padded 2 date.month).toList ++
      '-' :: ((padded 2 date.day).toList ++ rest))) = .ok (date, rest) := by
  have someDays : 0 < Date.daysIn date.year date.month :=
    Nat.lt_of_lt_of_le isDay.day.1 isDay.day.2
  have month := month_lt_of_day someDays
  have day : date.day < 100 := by
    have few : Date.daysIn date.year date.month ≤ 31 := by
      unfold Date.daysIn
      split
      · exact Nat.le_refl _
      · split
        · decide
        · split
          · split <;> decide
          · decide
    have := isDay.day.2
    omega
  have year : date.year < 10 ^ 4 := by
    have := isDay.year.2
    omega
  obtain ⟨a, b, c, d, years⟩ := List.length_eq_four.mp (length_padded (by decide : 0 < 4) year)
  obtain ⟨e, f, months⟩ := List.length_eq_two.mp (length_padded (by decide : 0 < 2) month)
  obtain ⟨g, h, days⟩ := List.length_eq_two.mp (length_padded (by decide : 0 < 2) day)
  have yearRead := digits?_padded 4 date.year
  have monthRead := digits?_padded 2 date.month
  have dayRead := digits?_padded 2 date.day
  rw [years] at yearRead ⊢
  rw [months] at monthRead ⊢
  rw [days] at dayRead ⊢
  have inYear : (Date.daysIn date.year date.month == 0) = false := by
    simpa using someDays.ne'
  have inMonth : (decide (date.day < 1) ||
      decide (Date.daysIn date.year date.month < date.day)) = false := by
    have := isDay.day
    simp only [Bool.or_eq_false_iff, decide_eq_false_iff_not]
    omega
  simp only [Date.read, List.cons_append, List.nil_append, List.length_cons, List.drop_succ_cons,
    List.drop_zero, List.take_succ_cons, List.take_zero, yearRead, monthRead, dayRead,
    Date.demand, bind, Except.bind, inYear, inMonth]
  simp
  rfl

/-- The fraction of a second, as it is written. -/
def fractionText (micros : Nat) : List Char :=
  if micros = 0 then [] else '.' :: (padded 6 micros).toList

theorem readSeconds_padded {second micros : Nat} (secondFits : second < 60)
    (microsFit : micros < 1000000) (rest : List Char) :
    readSeconds (':' :: ((padded 2 second).toList ++ (fractionText micros ++ 'Z' :: rest))) =
      some (second, micros, 'Z' :: rest) := by
  have secondRead := twoDigits_padded (by omega : second < 100)
    (fractionText micros ++ 'Z' :: rest)
  simp only [readSeconds, secondRead, bind, Option.bind]
  unfold fractionText
  by_cases none : micros = 0
  · rw [if_pos none, none]
    rfl
  · have six := length_padded (by decide : 0 < 6) microsFit
    have areDigits := isDigit_padded 6 micros
    have read := digits?_padded 6 micros
    rw [if_neg none]
    generalize (padded 6 micros).toList = digits at six areDigits read ⊢
    have fraction : (digits ++ 'Z' :: rest).takeWhile Char.isDigit = digits := by
      rw [List.takeWhile_append_of_pos areDigits, List.takeWhile_cons_of_neg (by decide),
        List.append_nil]
    have some : digits.isEmpty = false := by
      cases digits with
      | nil => cases six
      | cons first others => rfl
    have front : (digits ++ List.replicate 6 '0').take 6 = digits := List.take_left' six
    simp [fraction, some, -List.reduceReplicate, front, read]

theorem readOffset_universal : readOffset ['Z'] = some (some 0) := rfl

/-- The text of a time of the clock, part by part. -/
theorem toList_ledgerText {t : Timestamp} (clock : t.IsClock) :
    t.ledgerText.toList = (padded 4 t.date.year).toList ++ '-' :: ((padded 2 t.date.month).toList ++
      '-' :: ((padded 2 t.date.day).toList ++ 'T' :: ((padded 2 t.hour).toList ++
        ':' :: ((padded 2 t.minute).toList ++ ':' :: ((padded 2 t.second).toList ++
          (fractionText t.micros ++ ['Z'])))))) := by
  have fraction : (if t.micros == 0 then "" else "." ++ padded 6 t.micros).toList =
      fractionText t.micros := by
    unfold fractionText
    by_cases none : t.micros = 0
    · rw [if_pos (beq_iff_eq.mpr none), if_pos none]
      rfl
    · rw [if_neg (by simpa using none), if_neg none, String.toList_append]
      rfl
  unfold ledgerText displayLocal
  rw [if_pos (beq_iff_eq.mpr clock.offset)]
  have dash : "-".toList = ['-'] := rfl
  have colon : ":".toList = [':'] := rfl
  have middle : "T".toList = ['T'] := rfl
  have zone : "Z".toList = ['Z'] := rfl
  simp only [String.toList_append, fraction, dash, colon, middle, zone, List.append_assoc,
    List.cons_append, List.nil_append]

theorem ofClockText?_ledgerText {t : Timestamp} (clock : t.IsClock) :
    ofClockText? t.ledgerText.toList = some t := by
  have hour := twoDigits_padded (Nat.lt_trans clock.hour (by decide))
  have minute := twoDigits_padded (Nat.lt_trans clock.minute (by decide))
  have inRange : (decide (24 ≤ t.hour) || decide (60 ≤ t.minute) || decide (60 ≤ t.second)) =
      false := by
    simp [clock.hour, clock.minute, clock.second]
  rw [toList_ledgerText clock]
  unfold ofClockText?
  rw [read_date clock.date]
  simp only [Except.toOption, bind, Option.bind, hour, minute,
    readSeconds_padded clock.second clock.micros, readOffset_universal, inRange]
  obtain ⟨date, h, m, s, micros, offset⟩ := t
  obtain rfl := clock.offset
  rfl

/-- A time of the clock is read back from a ledger line. -/
theorem check_ledgerText {t : Timestamp} (clock : t.IsClock) :
    check (.text t.ledgerText) = .accepted t := by
  have digits (width n : Nat) : ∀ c ∈ (padded width n).toList, c.toNat < 128 :=
    fun c member => ascii_of_isDigit (isDigit_padded width n c member)
  have fraction : ∀ c ∈ fractionText t.micros, c.toNat < 128 := by
    unfold fractionText
    split
    · exact nofun
    · exact List.forall_mem_cons.mpr ⟨by decide, digits 6 t.micros⟩
  have ascii : ∀ c ∈ t.ledgerText.toList, c.toNat < 128 := by
    rw [toList_ledgerText clock]
    simp only [List.forall_mem_append, List.forall_mem_cons]
    exact ⟨digits _ _, by decide, digits _ _, by decide, digits _ _, by decide, digits _ _,
      by decide, digits _ _, by decide, digits _ _, fraction, by decide, nofun⟩
  have year : (t.date.year == 0) = false := by
    have := clock.date.year.1
    simp only [beq_eq_false_iff_ne]
    omega
  change ofText t.ledgerText = _
  unfold ofText
  dsimp only
  rw [byteChars_ascii ascii, ofClockText?_ledgerText clock]
  change inCalendar t = _
  rw [inCalendar, year]
  rfl

end Timestamp

end WebHarvest
