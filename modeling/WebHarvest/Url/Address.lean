/-!
# Addresses in brackets

A host in brackets is a version 6 address, possibly with a zone, or an address of a later version.
-/

set_option autoImplicit false

namespace WebHarvest.Url

def splitOn (separator : Char) : List Char → List (List Char)
  | [] => [[]]
  | c :: rest =>
      match splitOn separator rest with
      | part :: parts => if c == separator then [] :: part :: parts else (c :: part) :: parts
      | [] => [[c]]

/-- The part before the first separator and the part after it, if there is one. -/
def cutAt (separator : Char) (cs : List Char) : List Char × Option (List Char) :=
  match cs.dropWhile (· != separator) with
  | [] => (cs, none)
  | _ :: after => (cs.takeWhile (· != separator), some after)

/-- The part after the last separator, or everything. -/
def afterLast (separator : Char) (cs : List Char) : List Char :=
  (cs.reverse.takeWhile (· != separator)).reverse

private def isHex (c : Char) : Bool :=
  c.isDigit || ('a' ≤ c && c ≤ 'f') || ('A' ≤ c && c ≤ 'F')

/-- One number of a version 4 address: below 256, without a leading zero. -/
def isOctet (cs : List Char) : Bool :=
  !cs.isEmpty && cs.all Char.isDigit && cs.length ≤ 3 && (cs.length == 1 || cs.head? != some '0') &&
    cs.foldl (fun n c => 10 * n + (c.toNat - 48)) 0 ≤ 255

def isVersion4 (cs : List Char) : Bool :=
  let parts := splitOn '.' cs
  parts.length == 4 && parts.all isOctet

def isGroup (cs : List Char) : Bool := !cs.isEmpty && cs.length ≤ 4 && cs.all isHex

/-- Eight groups, of which one gap may stand for several; at an end the gap takes both colons. -/
def areGroups (parts : List (List Char)) : Bool :=
  let inner := (parts.drop 1).dropLast
  let gaps := inner.countP (·.isEmpty)
  if gaps == 0 then parts.length == 8 && parts.all isGroup
  else if gaps == 1 then
    let before := parts.takeWhile fun part => !part.isEmpty
    -- With an empty first part the gap is the second one.
    let (front, back) :=
      if before.isEmpty then ([], parts.drop 2) else (before, parts.drop (before.length + 1))
    let frontOk := !before.isEmpty || (parts.drop 1).head? == some []
    let back' := if back == [[]] then [] else back
    frontOk && front.all isGroup && back'.all isGroup && front.length + back'.length ≤ 7
  else false

/-- A version 6 address, the last two groups possibly as a version 4 address. -/
def isVersion6 (cs : List Char) : Bool :=
  let (address, zone) := cutAt '%' cs
  let zoneOk := match zone with
    | none => true
    | some zone => !zone.isEmpty && !zone.contains '%'
  let parts := splitOn ':' address
  let last := parts.getLast?.getD []
  let expanded :=
    if last.contains '.' then
      if isVersion4 last then some (parts.dropLast ++ [['0'], ['0']]) else none
    else some parts
  zoneOk && 3 ≤ parts.length && match expanded with
    | some parts => parts.length ≤ 9 && areGroups parts
    | none => false

/-- An address of a later version: `v`, hexadecimal digits, a point and some text. -/
def isFutureVersion (cs : List Char) : Bool :=
  match cs with
  | 'v' :: rest =>
      let version := rest.takeWhile isHex
      match rest.dropWhile isHex with
      | '.' :: text => !version.isEmpty && !text.isEmpty
      | _ => false
  | _ => false

def isBracketed (cs : List Char) : Bool :=
  if cs.head? == some 'v' then isFutureVersion cs else isVersion6 cs

end WebHarvest.Url
