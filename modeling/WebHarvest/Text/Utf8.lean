/-!
# Texts as bytes

Bytes that are no UTF-8 text are reported with the place of the first character that they do not
make up. The bytes are run through a machine whose state is the character that has begun: how many
of its bytes are taken, how many are owed, and the bounds of the next one.
-/

set_option autoImplicit false

namespace WebHarvest.Text

def utf8? (data : List UInt8) : Option String := String.fromUTF8? ⟨data.toArray⟩

inductive Utf8Fault where
  /-- So many bytes from an index begin no character. -/
  | invalid (length index : Nat)
  /-- The bytes end within the character that begins at an index. -/
  | incomplete (index : Nat)
  deriving DecidableEq, Repr

def Utf8Fault.message : Utf8Fault → String
  | invalid length index =>
      "invalid utf-8 sequence of " ++ toString length ++ " bytes from index " ++ toString index
  | incomplete index => "incomplete utf-8 byte sequence from index " ++ toString index

/-- Where the character begins that the bytes do not make up. -/
def Utf8Fault.index : Utf8Fault → Nat
  | invalid _ index => index
  | incomplete index => index

structure Utf8State where
  /-- Where it begins. -/
  start : Nat := 0
  taken : Nat := 0
  /-- How many bytes it still needs; none between two characters. -/
  owed : Nat := 0
  /-- The least and the greatest byte that may come next. -/
  low : Nat := 0x80
  high : Nat := 0xbf

/-- How many bytes follow the first byte of a character, and the bounds of the next one. -/
def utf8Tail? (first : Nat) : Option (Nat × Nat × Nat) :=
  if first < 0x80 then some (0, 0x80, 0xbf)
  else if first < 0xc2 then none
  else if first < 0xe0 then some (1, 0x80, 0xbf)
  else if first == 0xe0 then some (2, 0xa0, 0xbf)
  else if first == 0xed then some (2, 0x80, 0x9f)
  else if first < 0xf0 then some (2, 0x80, 0xbf)
  else if first == 0xf0 then some (3, 0x90, 0xbf)
  else if first < 0xf4 then some (3, 0x80, 0xbf)
  else if first == 0xf4 then some (3, 0x80, 0x8f)
  else none

def Utf8State.step (state : Utf8State) (byte : Nat) : Except Utf8Fault Utf8State :=
  if state.owed == 0 then
    let start := state.start + state.taken
    match utf8Tail? byte with
    | none => .error (.invalid 1 start)
    | some (owed, low, high) => .ok { start, taken := 1, owed, low, high }
  else if state.low ≤ byte && byte ≤ state.high then
    .ok { start := state.start, taken := state.taken + 1, owed := state.owed - 1 }
  else .error (.invalid state.taken state.start)

/-- What is wrong with bytes as a text, if anything is. -/
def utf8Fault? (data : List UInt8) : Option Utf8Fault :=
  match data.foldlM (fun state byte => state.step byte.toNat) ({} : Utf8State) with
  | .error fault => some fault
  | .ok state => if state.owed == 0 then none else some (.incomplete state.start)

end WebHarvest.Text
