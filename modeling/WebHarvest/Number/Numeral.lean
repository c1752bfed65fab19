import WebHarvest.Number.Double
import WebHarvest.Text.Blank
import WebHarvest.Text.Digit

/-!
# Numerals

A numeral is a text that writes a number. Numerals come from people, so blanks may stand around them
and single underscores between their digits; each kind of numeral says what else it lets pass. An
integer of too many digits is not computed at all.
-/

set_option autoImplicit false

namespace WebHarvest.Numeral

/-- An integer with more digits than this is refused. -/
def digitLimit : Nat := 4300

inductive Fault where
  | malformed
  /-- It has more digits than the limit allows. -/
  | tooLong (digits : Nat)
  deriving DecidableEq, Repr

/-- The blanks that are trimmed from numerals: the separators U+001C to U+001F are none of them. -/
def isSpace (c : Char) : Bool := Text.isBlank c && !(0x1c ≤ c.toNat && c.toNat ≤ 0x1f)

/-- Removes single underscores between characters; none may stand at an end or next to another. -/
def stripUnderscores? (cs : List Char) : Option (List Char) :=
  let doubled := (cs.zip (cs.drop 1)).any fun (a, b) => a == '_' && b == '_'
  if cs.head? == some '_' || cs.getLast? == some '_' || doubled then none
  else some (cs.filter (· != '_'))

def splitSign (cs : List Char) : Bool × List Char :=
  match cs with
  | '-' :: rest => (true, rest)
  | '+' :: rest => (false, rest)
  | _ => (false, cs)

def decimalValue (cs : List Char) : Nat := cs.foldl (fun n c => 10 * n + (c.toNat - 48)) 0

/-- The number that all of some characters write as decimal digits; of no characters it is zero. -/
def digits? (cs : List Char) : Option Nat :=
  if cs.all Char.isDigit then some (decimalValue cs) else none

/-- A digit that a number without leading zeros begins with. -/
private def isLeadingDigit (c : Char) : Bool := c.isDigit && c != '0'

/-- Drops zeros at the front, and underscores among them, as long as a digit is left. A minus sign
behind the zeros begins the number anew. -/
def dropLeadingZeros? (cs : List Char) : Option (List Char) :=
  let begins (c : Char) : Bool := isLeadingDigit c || c == '-'
  match cs with
  | '0' :: rest =>
      let zeros := rest.takeWhile fun c => c == '0' || c == '_'
      let last := zeros.getLastD '0'
      match rest.drop zeros.length with
      | [] => some [last]
      | '.' :: rest => some (last :: '.' :: rest)
      | c :: rest => if begins c then some (c :: rest) else none
  | c :: _ => if begins c then some cs else none
  | [] => none

/-- Drops a point that only zeros follow, of which there has to be one. -/
def dropZeroFraction (cs : List Char) : List Char :=
  match cs.dropWhile (· != '.') with
  | '.' :: zero :: zeros =>
      if (zero :: zeros).all (· == '0') then cs.takeWhile (· != '.') else cs
  | _ => cs

/-- The integer of a minus sign, if there is one, and digits without leading zeros. The sign counts
for the limit. -/
def plainInt (cs : List Char) : Except Fault Int :=
  let (sign, digits) : Nat × List Char := match cs with
    | '-' :: digits => (1, digits)
    | digits => (0, digits)
  let signed (n : Nat) : Int := if sign == 1 then -(n : Int) else n
  match digits with
  | ['0'] => .ok 0
  | c :: _ =>
      let size := sign + (digits.takeWhile Char.isDigit).length
      if !isLeadingDigit c then .error .malformed
      else if digitLimit < size then .error (.tooLong size)
      else
        match digits? digits with
        | some n => .ok (signed n)
        | none => .error .malformed
  | [] => .error .malformed

/-- The integer of a lenient numeral: a sign, digits with single underscores between them and zeros
in front, and at most zeros behind a point. -/
def lenientInt (s : String) : Except Fault Int :=
  let cleaned? : Option (List Char) := do
    let digits ← match Text.trimBoth isSpace s.toList with
      | '+' :: '-' :: _ => none
      | '+' :: rest => dropLeadingZeros? rest
      | '-' :: rest => ('-' :: ·) <$> dropLeadingZeros? rest
      | cs => dropLeadingZeros? cs
    stripUnderscores? (dropZeroFraction digits)
  match cleaned? with
  | some cs => plainInt cs
  | none => .error .malformed

/-- The integer of a numeral of any script: blanks around it, a sign, and decimal digits with single
underscores between them. The sign does not count for the limit, and the limit is looked at before
whatever follows the digits. -/
def intOfAnyScript (s : String) : Except Fault Int :=
  let (negative, cs) := splitSign (Text.trimBoth isSpace s.toList)
  let inNumber (c : Char) : Bool := c == '_' || (Text.digitValue? c).isSome
  let digits := (stripUnderscores? (cs.takeWhile inNumber)).map (·.filterMap Text.digitValue?)
  match digits with
  | none => .error .malformed
  | some [] => .error .malformed
  | some digits =>
      if digitLimit < digits.length then .error (.tooLong digits.length)
      else if !(cs.dropWhile inNumber).isEmpty then .error .malformed
      else
        let n : Nat := digits.foldl (fun n digit => 10 * n + digit) 0
        .ok (if negative then -(n : Int) else n)

/-- The exponent part of a number: `e`, a sign and digits. -/
private def exponentOf? (cs : List Char) : Option Int :=
  match cs with
  | [] => some 0
  | e :: rest =>
      let (negative, digits) := splitSign rest
      if (e == 'e' || e == 'E') && !digits.isEmpty && digits.all Char.isDigit then
        let n : Int := decimalValue digits
        some (if negative then -n else n)
      else none

/-- The floating-point number that characters write: a word for a number that is not finite, or
digits with a point among them and an exponent behind them. -/
def plainDouble? (cs : List Char) : Option Double := do
  let (negative, cs) := splitSign cs
  match (String.ofList cs).toLower with
  | "nan" => return Double.notANumber
  | "inf" => return Double.infinity negative
  | "infinity" => return Double.infinity negative
  | _ =>
      let whole := cs.takeWhile Char.isDigit
      let rest := cs.dropWhile Char.isDigit
      let (fraction, rest) := match rest with
        | '.' :: rest => (rest.takeWhile Char.isDigit, rest.dropWhile Char.isDigit)
        | rest => ([], rest)
      if whole.isEmpty && fraction.isEmpty then none
      else
        let exponent ← exponentOf? rest
        return Double.ofDecimal negative (decimalValue (whole ++ fraction))
          (exponent - fraction.length)

/-- The floating-point number of a lenient numeral, which has either blanks around it or single
underscores within it. -/
def lenientDouble? (s : String) : Option Double :=
  (plainDouble? (Text.trimBoth isSpace s.toList)).or
    ((stripUnderscores? s.toList).bind plainDouble?)

end WebHarvest.Numeral
