import WebHarvest.Config.Check
import WebHarvest.Number.Arithmetic

/-!
# Timestamps

A timestamp is a date and a time of day, possibly with its distance from universal time. It is read
from the usual text forms and from seconds or milliseconds since 1970, and it is shown in the
standard text form.
-/

set_option autoImplicit false

namespace WebHarvest

structure Date where
  year : Nat
  month : Nat
  day : Nat
  deriving DecidableEq, Repr

/-- A date and a time of day. `offset` is the distance from universal time in minutes. -/
structure Timestamp where
  date : Date
  hour : Nat := 0
  minute : Nat := 0
  second : Nat := 0
  micros : Nat := 0
  offset : Option Int := none
  deriving DecidableEq, Repr

namespace Date

/-- A year of the Gregorian calendar with a 29th of February. -/
def isLeapYear (year : Nat) : Bool := year % 4 == 0 && (year % 100 != 0 || year % 400 == 0)

/-- The number of days of a month; zero for a month that does not exist. -/
def daysIn (year month : Nat) : Nat :=
  if [1, 3, 5, 7, 8, 10, 12].contains month then 31
  else if [4, 6, 9, 11].contains month then 30
  else if month == 2 then if isLeapYear year then 29 else 28
  else 0

/-- The day that lies so many days after the first of January 1970. Years are counted from March, so
that a leap day is the last day of its year. -/
def ofDays (days : Int) : Date :=
  let shifted := (days + 719468).toNat
  let era := shifted / 146097
  let dayOfEra := shifted % 146097
  let yearOfEra := (dayOfEra - dayOfEra / 1460 + dayOfEra / 36524 - dayOfEra / 146096) / 365
  let dayOfYear := dayOfEra - (365 * yearOfEra + yearOfEra / 4 - yearOfEra / 100)
  let fromMarch := (5 * dayOfYear + 2) / 153
  let month := if fromMarch < 10 then fromMarch + 3 else fromMarch - 9
  { year := era * 400 + yearOfEra + (if month ≤ 2 then 1 else 0)
    month
    day := dayOfYear - (153 * fromMarch + 2) / 5 + 1 }

inductive Fault where
  | tooShort
  | yearDigits
  | separator
  | monthDigits
  | dayDigits
  | monthRange
  | dayRange
  | trailing

def Fault.message : Fault → String
  | tooShort => "input is too short"
  | yearDigits => "invalid character in year"
  | separator => "invalid date separator, expected `-`"
  | monthDigits => "invalid character in month"
  | dayDigits => "invalid character in day"
  | monthRange => "month value is outside expected range of 1-12"
  | dayRange => "day value is outside expected range"
  | trailing => "unexpected extra characters at the end of the input"

def demand {α : Type} (fault : Fault) : Option α → Except Fault α
  | some a => .ok a
  | none => .error fault

def read (cs : List Char) : Except Fault (Date × List Char) := do
  if cs.length < 10 then throw .tooShort
  let part (start length : Nat) : List Char := (cs.drop start).take length
  let year ← demand .yearDigits (Numeral.digits? (part 0 4))
  if part 4 1 != ['-'] then throw .separator
  let month ← demand .monthDigits (Numeral.digits? (part 5 2))
  if part 7 1 != ['-'] then throw .separator
  let day ← demand .dayDigits (Numeral.digits? (part 8 2))
  if daysIn year month == 0 then throw .monthRange
  if day < 1 || daysIn year month < day then throw .dayRange
  return (⟨year, month, day⟩, cs.drop 10)

def ofText (cs : List Char) : Except Fault Date := do
  let (date, rest) ← read cs
  if rest.isEmpty then return date else throw .trailing

end Date

namespace Timestamp

/-- The time so many microseconds after the beginning of 1970. -/
def ofMicros (micros : Int) : Timestamp :=
  let seconds := micros.fdiv 1000000
  let ofDay := (seconds.fmod 86400).toNat
  { date := Date.ofDays (seconds.fdiv 86400)
    hour := ofDay / 3600
    minute := ofDay / 60 % 60
    second := ofDay % 60
    micros := (micros.fmod 1000000).toNat
    offset := some 0 }

def twoDigits : List Char → Option (Nat × List Char)
  | a :: b :: rest => (Numeral.digits? [a, b]).map fun n => (n, rest)
  | _ => none

def readSeconds (cs : List Char) : Option (Nat × Nat × List Char) :=
  match cs with
  | ':' :: rest => do
      let (second, rest) ← twoDigits rest
      match rest with
      | point :: rest' =>
          if point == '.' || point == ',' then
            let fraction := rest'.takeWhile Char.isDigit
            if fraction.isEmpty then none
            else
              let padded := (fraction ++ List.replicate 6 '0').take 6
              return (second, ← Numeral.digits? padded, rest'.drop fraction.length)
          else return (second, 0, rest)
      | [] => return (second, 0, [])
  | cs => some (0, 0, cs)

/-- The sign at the front, true for a minus; there is also a minus sign of three bytes. -/
def readSign : List Char → Option (Bool × List Char)
  | '+' :: rest => some (false, rest)
  | '-' :: rest => some (true, rest)
  | '\u00e2' :: '\u0088' :: '\u0092' :: rest => some (true, rest)
  | _ => none

def readOffset (cs : List Char) : Option (Option Int) :=
  match cs with
  | [] => some none
  | ['Z'] => some (some 0)
  | ['z'] => some (some 0)
  | cs => do
      let (negative, rest) ← readSign cs
      let (hours, rest) ← twoDigits rest
      let rest := match rest with
        | ':' :: rest => rest
        | rest => rest
      let (minutes, rest) ← twoDigits rest
      if !rest.isEmpty || 60 ≤ minutes || 24 ≤ hours then none
      let total : Int := hours * 60 + minutes
      return some (if negative then -total else total)

def ofClockText? (cs : List Char) : Option Timestamp := do
  let (date, rest) ← (Date.read cs).toOption
  match rest with
  | separator :: rest =>
      if !(['T', 't', '_', ' '].contains separator) then none
      let (hour, rest) ← twoDigits rest
      let rest ← match rest with
        | ':' :: rest => some rest
        | _ => none
      let (minute, rest) ← twoDigits rest
      let (second, micros, rest) ← readSeconds rest
      let offset ← readOffset rest
      if 24 ≤ hour || 60 ≤ minute || 60 ≤ second then none
      return { date, hour, minute, second, micros, offset }
  | [] => none

inductive CountFault where
  | beforeCalendar
  | afterCalendar
  | notANumber
  | longFraction
  deriving DecidableEq, Repr

def CountFault.message : CountFault → String
  | beforeCalendar => "dates before 0000 are not supported as unix timestamps"
  | afterCalendar => "dates after 9999 are not supported as unix timestamps"
  | notANumber => "NaN values not permitted"
  | longFraction => "numeric times may not exceed 86,399 seconds"

/-- Counts that are larger than this are milliseconds, others are seconds. -/
def largestSeconds : Nat := 20000000000

/-- The time that a count since 1970 stands for; `extra` is added in microseconds. -/
def ofCount (count : Int) (extra : Nat) : Except CountFault Timestamp :=
  if count ≤ -Check.wordBound then .error .beforeCalendar
  else
    let (seconds, micros) : Int × Nat :=
      if count.natAbs ≤ largestSeconds then (count, 0)
      else (count.fdiv 1000, (count.fmod 1000).toNat * 1000)
    let micros := micros + extra
    let seconds := seconds + micros / 1000000
    if Nat.pow 2 32 ≤ micros then .error .longFraction
    else if seconds < -62167219200 then .error .beforeCalendar
    else if 253402300799 < seconds then .error .afterCalendar
    else .ok (ofMicros (seconds * 1000000 + micros % 1000000))

/-- The time that a count with a fraction stands for. The whole seconds below it and the rest, to
the nearest microsecond, are computed with floating-point numbers. -/
def ofFractionalCount (x : Double) : Except CountFault Timestamp :=
  if x.isNaN then .error .notANumber
  else
    let inMilliseconds := x.compareInt largestSeconds == some .gt ||
      x.compareInt (-largestSeconds) == some .lt
    let x := if inMilliseconds then x.divNat 1000 else x
    let seconds := x.floorWithin (-Check.wordBound) (Check.wordBound - 1)
    let rest := (x.sub (Double.ofInt seconds)).mul (Double.ofInt 1000000)
    ofCount seconds (rest.roundWithin 0 (Nat.pow 2 32 - 1)).toNat

inductive Count where
  | whole (n : Int)
  | fractional (x : Double)

def Count.timestamp : Count → Except CountFault Timestamp
  | whole n => ofCount n 0
  | fractional x => ofFractionalCount x

/-- The count that a text writes: a sign and digits, which have to fit into a word. With digits
behind a point the text is a number of JSON, so that it has no plus sign and no needless zeros. -/
def countOf? (cs : List Char) : Option Count :=
  let (negative, digits) := Numeral.splitSign cs
  let whole := digits.takeWhile Char.isDigit
  let n : Int := Numeral.decimalValue whole
  if whole.isEmpty || Check.wordBound ≤ n then none
  else
    match digits.drop whole.length with
    | [] => some (.whole (if negative then -n else n))
    | '.' :: next :: _ =>
        if cs.head? == some '+' || !next.isDigit || (1 < whole.length && whole.head? == some '0')
        then none
        else (Numeral.plainDouble? cs).map .fractional
    | _ => none

def byteChars (s : String) : List Char :=
  (s.toList.flatMap String.utf8EncodeChar).map fun byte => Char.ofNat byte.toNat

def inCalendar (t : Timestamp) : Checked Timestamp :=
  if t.date.year == 0 then Checked.fail (.datetimeParsing "year 0 is out of range") else .accepted t

/-- The timestamp that a text stands for. A date alone stands for its first moment. A text that is
neither a timestamp nor a count is reported as a bad date, and so is a count out of range. -/
def ofText (s : String) : Checked Timestamp :=
  let cs := byteChars s
  let count := countOf? cs
  match ofClockText? cs, count.map Count.timestamp with
  | some t, _ => inCalendar t
  | none, some (.ok t) => inCalendar t
  | none, time =>
      match Date.ofText cs with
      | .ok date => inCalendar { date }
      | .error fault => Checked.fail <| .dateParsing <|
          match count, time with
          | some (.whole _), some (.error outOfRange) => outOfRange.message
          | _, _ => fault.message

/-- The timestamp of a count, or the issue that it is none. -/
private def ofCounted (count : Count) : Checked Timestamp :=
  match count.timestamp with
  | .ok t => inCalendar t
  | .error fault => Checked.fail (.datetimeParsing fault.message)

/-- A timestamp as JSON gives it: a text or a count since 1970. -/
def check : Value → Checked Timestamp
  | .text s => ofText s
  | .int n => if Check.inWord n then ofCounted (.whole n) else Checked.fail .datetimeType
  | .float x => ofCounted (.fractional x)
  | _ => Checked.fail .datetimeType

def padded (width n : Nat) : String :=
  let text := toString n
  String.ofList (List.replicate (width - text.length) '0') ++ text

def displayOffset (minutes : Int) : String :=
  (if minutes < 0 then "-" else "+") ++ padded 2 (minutes.natAbs / 60) ++ ":" ++
    padded 2 (minutes.natAbs % 60)

/-- The date and the time of day; a fraction is written with six digits, and only if there is
one. -/
def displayLocal (t : Timestamp) : String :=
  padded 4 t.date.year ++ "-" ++ padded 2 t.date.month ++ "-" ++ padded 2 t.date.day ++ "T" ++
    padded 2 t.hour ++ ":" ++ padded 2 t.minute ++ ":" ++ padded 2 t.second ++
    (if t.micros == 0 then "" else "." ++ padded 6 t.micros)

def display (t : Timestamp) : String :=
  t.displayLocal ++ (t.offset.map displayOffset).getD ""

def ledgerText (t : Timestamp) : String :=
  if t.offset == some 0 then t.displayLocal ++ "Z" else t.display

end Timestamp

end WebHarvest
