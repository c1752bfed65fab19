import WebHarvest.Number.Shortest
import WebHarvest.Text.Quoted
import WebHarvest.Text.Utf8
import WebHarvest.Value.Basic

/-!
# Writing JSON

One writer serves every JSON text the library produces. A `Style` tells them apart: ledger lines are
compact, session files are indented, and both keep characters outside ASCII as they are; cookie
files are indented and hold ASCII only.
-/

set_option autoImplicit false

namespace WebHarvest.Json

structure Style where
  /-- The indentation of one level; without it everything stands on one line. -/
  indent : Option Nat
  /-- Characters outside ASCII are written as escapes. -/
  asciiOnly : Bool
  /-- How floating-point numbers are laid out. -/
  numbers : Double.Layout

def ledgerStyle : Style := ⟨none, false, Double.ledgerLayout⟩

def sessionStyle : Style := ⟨some 2, false, Double.ledgerLayout⟩

def cookieStyle : Style := ⟨some 2, true, Double.cookieLayout⟩

/-- Compact text that keeps only what JSON knows; used where a value is shown in a single line. -/
def compactStyle : Style := ⟨none, false, Double.cookieLayout⟩

/-- Why a value has no JSON text. The last four are faults of free data that is made plain. -/
inductive Fault where
  | notData (typeName : String)
  | keyNotText (typeName : String)
  /-- Containers are nested too deep. -/
  | tooDeep
  | notUtf8 (fault : Text.Utf8Fault)
  /-- A key is bytes that are no text; `byte` is the first of them that is at fault. -/
  | keyNotUtf8 (byte : UInt8) (fault : Text.Utf8Fault)
  | unknownType (typeName : String)
  deriving DecidableEq, Repr

def Fault.isOfType : Fault → Bool
  | .notData _ => true
  | .keyNotText _ => true
  | _ => false

def Fault.message : Fault → String
  | .notData typeName => "Object of type " ++ typeName ++ " is not JSON serializable"
  | .keyNotText typeName => "keys must be str, int, float, bool or None, not " ++ typeName
  | .tooDeep => "Error serializing to JSON: ValueError: Maximum serialization depth exceeded"
  | .notUtf8 fault => "Error serializing to JSON: " ++ fault.message
  | .keyNotUtf8 byte fault =>
      "Error serializing to JSON: UnicodeDecodeError: 'utf-8' codec can't decode byte 0x" ++
        String.ofList (Text.hexPadded 2 byte.toNat) ++ " in position " ++ toString fault.index ++
        ": invalid utf-8"
  | .unknownType typeName =>
      "Unable to serialize unknown type: <class '__main__." ++ typeName ++ "'>"

def escapeUnit (n : Nat) : List Char := '\\' :: 'u' :: Text.hexPadded 4 n

/-- The escape of a character: two units when it lies outside the basic plane. -/
def escapeChar (c : Char) : List Char :=
  if c.toNat < 0x10000 then escapeUnit c.toNat
  else
    let rest := c.toNat - 0x10000
    escapeUnit (0xd800 + rest / 0x400) ++ escapeUnit (0xdc00 + rest % 0x400)

def writeChar (asciiOnly : Bool) (c : Char) : List Char :=
  if c == '"' || c == '\\' then ['\\', c]
  else if c == '\n' then ['\\', 'n']
  else if c == '\r' then ['\\', 'r']
  else if c == '\t' then ['\\', 't']
  else if c == '\x08' then ['\\', 'b']
  else if c == '\x0c' then ['\\', 'f']
  else if c.toNat < 0x20 || (asciiOnly && 0x7f ≤ c.toNat) then escapeChar c
  else [c]

def writeText (asciiOnly : Bool) (s : String) : String :=
  String.ofList ('"' :: s.toList.flatMap (writeChar asciiOnly) ++ ['"'])

def keyText (style : Style) : Value → Except Fault String
  | .text s => .ok s
  | .fieldKind kind => .ok kind.name
  | .null => .ok "null"
  | .bool b => .ok (if b then "true" else "false")
  | .int n => .ok (toString n)
  | .float x => .ok (style.numbers.render x)
  | key => .error (.keyNotText key.typeName)

/-- Puts items between brackets, each on its own line when the style is indented. -/
def bracketed (style : Style) (depth : Nat) (opening closing : String) (items : List String) :
    String :=
  if items.isEmpty then opening ++ closing
  else
    match style.indent with
    | none => opening ++ ",".intercalate items ++ closing
    | some width =>
        let line (levels : Nat) := "\n" ++ String.ofList (List.replicate (levels * width) ' ')
        opening ++ line (depth + 1) ++ ("," ++ line (depth + 1)).intercalate items ++
          line depth ++ closing

def Style.colon (style : Style) : String := if style.indent.isSome then ": " else ":"

mutual

/-- Writes a value that stands `depth` levels deep. -/
def writeAt (style : Style) (depth : Nat) : Value → Except Fault String
  | .null => .ok "null"
  | .bool b => .ok (if b then "true" else "false")
  | .int n => .ok (toString n)
  | .float x => .ok (style.numbers.render x)
  | .text s => .ok (writeText style.asciiOnly s)
  | .fieldKind kind => .ok (writeText style.asciiOnly kind.name)
  | .list items => return bracketed style depth "[" "]" (← writeItems style (depth + 1) items)
  | .tuple items => return bracketed style depth "[" "]" (← writeItems style (depth + 1) items)
  | .map entries =>
      return bracketed style depth "\x7b" "\x7d" (← writeEntries style (depth + 1) entries)
  | value => .error (.notData value.typeName)

def writeItems (style : Style) (depth : Nat) : List Value → Except Fault (List String)
  | [] => .ok []
  | item :: rest => return (← writeAt style depth item) :: (← writeItems style depth rest)

def writeEntries (style : Style) (depth : Nat) :
    List (Value × Value) → Except Fault (List String)
  | [] => .ok []
  | (key, value) :: rest => do
      let name ← keyText style key
      let text ← writeAt style depth value
      return (writeText style.asciiOnly name ++ style.colon ++ text) ::
        (← writeEntries style depth rest)

end

def write (style : Style) (value : Value) : Except Fault String := writeAt style 0 value

end WebHarvest.Json
