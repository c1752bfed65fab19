import WebHarvest.Text.Printable

/-!
# Quoted text

How messages show a text or a run of bytes: between quotes, with an escape for every character that
does not print. A single quote is the usual delimiter; a text that holds single quotes and no double
quote is delimited by double quotes instead, so that most texts need no escape for their quotes.
-/

set_option autoImplicit false

namespace WebHarvest.Text

def hexDigit (n : Nat) : Char := Nat.digitChar (n % 16)

/-- `width` hexadecimal digits of `n`, the highest first. -/
def hexPadded : Nat → Nat → List Char
  | 0, _ => []
  | width + 1, n => hexPadded width (n / 16) ++ [hexDigit n]

def delimiterFor (cs : List Char) : Char :=
  if cs.contains '\'' && !cs.contains '"' then '"' else '\''

/-- The escape of a character that does not print, by the size of its code point. -/
def escapeCode (n : Nat) : List Char :=
  if n < 0x100 then '\\' :: 'x' :: hexPadded 2 n
  else if n < 0x10000 then '\\' :: 'u' :: hexPadded 4 n
  else '\\' :: 'U' :: hexPadded 8 n

def quotedChar (delimiter : Char) (prints : Char → Bool) (c : Char) : List Char :=
  if c == delimiter || c == '\\' then ['\\', c]
  else if c == '\n' then ['\\', 'n']
  else if c == '\r' then ['\\', 'r']
  else if c == '\t' then ['\\', 't']
  else if prints c then [c]
  else escapeCode c.toNat

def quoted (s : String) : String :=
  let cs := s.toList
  let delimiter := delimiterFor cs
  String.ofList (delimiter :: cs.flatMap (quotedChar delimiter isPrintable) ++ [delimiter])

/-- A run of bytes between quotes, marked by a leading `b`; only visible ASCII shows as itself. -/
def quotedBytes (bytes : List UInt8) : String :=
  let cs := bytes.map fun byte => Char.ofNat byte.toNat
  let delimiter := delimiterFor cs
  String.ofList ('b' :: delimiter ::
    cs.flatMap (quotedChar delimiter fun c => 0x20 ≤ c.toNat && c.toNat < 0x7f) ++ [delimiter])

end WebHarvest.Text
