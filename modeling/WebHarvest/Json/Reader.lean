import WebHarvest.Number.Numeral
import WebHarvest.Value.Basic

/-!
# Reading JSON

A reader for JSON texts, which also takes the names of the numbers that are not finite. Of two
entries with one key the later one gives the value and the earlier one the place. Each step of the
reader returns the characters it has left over.

Two dialects differ in what they refuse besides malformed texts. Plain texts have a limit for the
digits of an integer only, and one that is too long is a fault of its own. Guarded texts, which the
library's own files are, also have limits for the whole part of every number and for the nesting of
containers, and what goes beyond them is malformed.
-/

set_option autoImplicit false

namespace WebHarvest.Json

inductive Dialect where
  | plain
  | guarded
  deriving DecidableEq, Repr

/-- How deep containers that are not empty may be nested. -/
def nestingLimit : Nat := 200

inductive ReadFault where
  | malformed
  /-- An integer has more digits than the limit for numerals allows. -/
  | tooManyDigits (digits : Nat)
  deriving DecidableEq, Repr

abbrev Partly (α : Type) := α × List Char

/-- A step that has no result on malformed texts. -/
def demand {α : Type} : Option α → Except ReadFault α
  | some result => .ok result
  | none => .error .malformed

def isSpace (c : Char) : Bool := c == ' ' || c == '\t' || c == '\n' || c == '\r'

def skipSpace (cs : List Char) : List Char := cs.dropWhile isSpace

def hexValue? (c : Char) : Option Nat :=
  if '0' ≤ c && c ≤ '9' then some (c.toNat - 48)
  else if 'a' ≤ c && c ≤ 'f' then some (c.toNat - 87)
  else if 'A' ≤ c && c ≤ 'F' then some (c.toNat - 55)
  else none

/-- The four digits of a `\u` escape. -/
def readUnit : List Char → Option (Nat × List Char)
  | a :: b :: c :: d :: rest => do
      let digit (acc : Nat) (x : Char) : Option Nat := (hexValue? x).map (16 * acc + ·)
      let unit ← digit (← digit (← digit (← digit 0 a) b) c) d
      return (unit, rest)
  | _ => none

/-- The character of one `\u` escape, or of two that make up a surrogate pair. A surrogate that
stands alone is no character. -/
def readEscapedUnits (cs : List Char) : Option (Char × List Char) := do
  let (high, rest) ← readUnit cs
  if 0xd800 ≤ high && high < 0xdc00 then
    match rest with
    | '\\' :: 'u' :: rest =>
        let (low, rest) ← readUnit rest
        if 0xdc00 ≤ low && low < 0xe000 then
          return (Char.ofNat (0x10000 + (high - 0xd800) * 0x400 + (low - 0xdc00)), rest)
        else none
    | _ => none
  else if 0xdc00 ≤ high && high < 0xe000 then none
  else return (Char.ofNat high, rest)

def readEscape : List Char → Option (Char × List Char)
  | '"' :: rest => some ('"', rest)
  | '\\' :: rest => some ('\\', rest)
  | '/' :: rest => some ('/', rest)
  | 'b' :: rest => some ('\x08', rest)
  | 'f' :: rest => some ('\x0c', rest)
  | 'n' :: rest => some ('\n', rest)
  | 'r' :: rest => some ('\r', rest)
  | 't' :: rest => some ('\t', rest)
  | 'u' :: rest => readEscapedUnits rest
  | _ => none

/-- The rest of a string whose opening quote is already read; `seen` holds its characters, latest
first. -/
def readText : Nat → List Char → List Char → Option (String × List Char)
  | 0, _, _ => none
  | _, _, [] => none
  | fuel + 1, seen, c :: rest =>
      if c == '"' then some (String.ofList seen.reverse, rest)
      else if c == '\\' then do
        let (escaped, rest) ← readEscape rest
        readText fuel (escaped :: seen) rest
      else if c.toNat < 0x20 then none
      else readText fuel (c :: seen) rest

/-- The digits at the front; at least one. -/
def readDigits (cs : List Char) : Option (List Char × List Char) :=
  let digits := cs.takeWhile Char.isDigit
  if digits.isEmpty then none else some (digits, cs.dropWhile Char.isDigit)

/-- The digits of a whole part, which does not begin with a zero that has digits behind it. -/
def readWhole : List Char → Option (List Char × List Char)
  | '0' :: rest => match rest with
      | c :: _ => if c.isDigit then none else some (['0'], rest)
      | [] => some (['0'], rest)
  | cs => readDigits cs

def readFraction : List Char → Option (Option (List Char) × List Char)
  | '.' :: rest => (readDigits rest).map fun (digits, rest) => (some digits, rest)
  | cs => some (none, cs)

def readExponent : List Char → Option (Option Int × List Char)
  | c :: rest =>
      if c == 'e' || c == 'E' then
        let (negative, rest) := match rest with
          | '-' :: rest => (true, rest)
          | '+' :: rest => (false, rest)
          | rest => (false, rest)
        (readDigits rest).map fun (digits, rest) =>
          let n : Int := Numeral.decimalValue digits
          (some (if negative then -n else n), rest)
      else some (none, c :: rest)
  | [] => some (none, [])

def checkWhole (dialect : Dialect) (negative : Bool) (whole : List Char) (isInteger : Bool) :
    Except ReadFault Unit :=
  match dialect with
  | .plain =>
      if isInteger && Numeral.digitLimit < whole.length then .error (.tooManyDigits whole.length)
      else .ok ()
  | .guarded =>
      if Numeral.digitLimit < whole.length + (if negative then 1 else 0) then .error .malformed
      else .ok ()

/-- A number whose sign is already read. Without fraction and exponent it is an integer. -/
def readNumber (dialect : Dialect) (negative : Bool) (cs : List Char) :
    Except ReadFault (Partly Value) := do
  let (whole, cs) ← demand (readWhole cs)
  let (fraction, cs) ← demand (readFraction cs)
  let (exponent, cs) ← demand (readExponent cs)
  checkWhole dialect negative whole (fraction.isNone && exponent.isNone)
  match fraction, exponent with
  | none, none =>
      let n : Int := Numeral.decimalValue whole
      return (.int (if negative then -n else n), cs)
  | fraction, exponent =>
      let digits := fraction.getD []
      let value := Double.ofDecimal negative (Numeral.decimalValue (whole ++ digits))
        (exponent.getD 0 - digits.length)
      return (.float value, cs)

def stripWord? (word : String) (cs : List Char) : Option (List Char) :=
  if word.toList.isPrefixOf cs then some (cs.drop word.length) else none

def readScalar (dialect : Dialect) (cs : List Char) : Except ReadFault (Partly Value) :=
  let named (word : String) (value : Value) : Except ReadFault (Partly Value) :=
    demand ((stripWord? word cs).map fun rest => (value, rest))
  match cs with
  | 'n' :: _ => named "null" .null
  | 't' :: _ => named "true" (.bool true)
  | 'f' :: _ => named "false" (.bool false)
  | 'N' :: _ => named "NaN" (.float Double.notANumber)
  | 'I' :: _ => named "Infinity" (.float (Double.infinity false))
  | '-' :: 'I' :: _ => named "-Infinity" (.float (Double.infinity true))
  | '-' :: rest => readNumber dialect true rest
  | cs => readNumber dialect false cs

/-- Enters a container that is not empty; `depth` of them are open already. -/
def enter (dialect : Dialect) (depth : Nat) : Except ReadFault Unit :=
  if dialect == .guarded && nestingLimit ≤ depth then .error .malformed else .ok ()

mutual

/-- A value; the characters in front of it that are space are already skipped. -/
def readValue (dialect : Dialect) : Nat → Nat → List Char → Except ReadFault (Partly Value)
  | 0, _, _ => .error .malformed
  | fuel + 1, depth, '[' :: rest =>
      match skipSpace rest with
      | ']' :: rest => .ok (.list [], rest)
      | rest => do
          enter dialect depth
          let (items, rest) ← readItems dialect fuel (depth + 1) rest
          return (.list items, rest)
  | fuel + 1, depth, '\x7b' :: rest =>
      match skipSpace rest with
      | '\x7d' :: rest => .ok (.map [], rest)
      | rest => do
          enter dialect depth
          let (entries, rest) ← readEntries dialect fuel (depth + 1) [] rest
          return (.record entries, rest)
  | fuel + 1, _, '"' :: rest => do
      let (s, rest) ← demand (readText (fuel + 1) [] rest)
      return (.text s, rest)
  | _ + 1, _, cs => readScalar dialect cs

/-- The items of a list, from the first one to the closing bracket. -/
def readItems (dialect : Dialect) : Nat → Nat → List Char → Except ReadFault (Partly (List Value))
  | 0, _, _ => .error .malformed
  | fuel + 1, depth, cs => do
      let (item, rest) ← readValue dialect fuel depth cs
      match skipSpace rest with
      | ']' :: rest => return ([item], rest)
      | ',' :: rest =>
          let (items, rest) ← readItems dialect fuel depth (skipSpace rest)
          return (item :: items, rest)
      | _ => throw .malformed

/-- The entries of a mapping, from the first key to the closing brace. -/
def readEntries (dialect : Dialect) :
    Nat → Nat → Record → List Char → Except ReadFault (Partly Record)
  | 0, _, _, _ => .error .malformed
  | fuel + 1, depth, entries, '"' :: cs => do
      let (key, rest) ← demand (readText (fuel + 1) [] cs)
      match skipSpace rest with
      | ':' :: rest =>
          let (value, rest) ← readValue dialect fuel depth (skipSpace rest)
          let entries := Value.insertEntry key value entries
          match skipSpace rest with
          | '\x7d' :: rest => return (entries, rest)
          | ',' :: rest => readEntries dialect fuel depth entries (skipSpace rest)
          | _ => throw .malformed
      | _ => throw .malformed
  | _ + 1, _, _, _ => .error .malformed

end

/-- The value of a JSON text that holds nothing else. Every step uses up a character, so the length
of the text bounds the number of steps. -/
def read (dialect : Dialect) (s : String) : Except ReadFault Value := do
  let cs := s.toList
  let (value, rest) ← readValue dialect (cs.length + 1) 0 (skipSpace cs)
  if (skipSpace rest).isEmpty then return value else throw .malformed

def read? (s : String) : Option Value := (read .plain s).toOption

end WebHarvest.Json
