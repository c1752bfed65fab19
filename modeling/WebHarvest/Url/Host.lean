import WebHarvest.Text.LowerCase
import WebHarvest.Url.Address

/-!
# The host of a URL

The host name under which a target is rate limited. A text that names no host, or whose authority
is malformed, has none.
-/

set_option autoImplicit false

namespace WebHarvest.Url

private def isSchemeChar (c : Char) : Bool := c.isAlphanum || c == '+' || c == '-' || c == '.'

/-- What follows the scheme, or everything when the text begins with none. -/
def dropScheme (cs : List Char) : List Char :=
  match cs, cutAt ':' cs with
  | first :: _, (scheme, some rest) =>
      if first.isAlpha && scheme.all isSchemeChar then rest else cs
  | _, _ => cs

/-- The authority: what stands between two slashes and the path, the query or the fragment. -/
def authority (cs : List Char) : List Char :=
  match cs with
  | '/' :: '/' :: rest => rest.takeWhile fun c => !(c == '/' || c == '?' || c == '#')
  | _ => []

/-- Characters whose compatibility form holds a delimiter of URLs. An authority with one of them
could be read in two ways. -/
def hidesDelimiter (c : Char) : Bool :=
  [0x2047, 0x2048, 0x2049, 0x2100, 0x2101, 0x2105, 0x2106, 0x2a74, 0xfe13, 0xfe16, 0xfe55, 0xfe56,
    0xfe5f, 0xfe6b, 0xff03, 0xff0f, 0xff1a, 0xff1f, 0xff20].contains c.toNat

def bracketsOk (authority : List Char) : Bool :=
  match authority.contains '[', authority.contains ']' with
  | false, false => true
  | true, true =>
      match cutAt '[' (afterLast '@' authority) with
      | (before, some bracketed) =>
          let (host, after) := cutAt ']' bracketed
          let port := after.getD []
          before.isEmpty && (port.isEmpty || port.head? == some ':') && isBracketed host
      | (host, none) => isBracketed (cutAt ':' host).1
  | _, _ => false

def rawHost (authority : List Char) : List Char :=
  match cutAt '[' (afterLast '@' authority) with
  | (_, some bracketed) => (cutAt ']' bracketed).1
  | (host, none) => (cutAt ':' host).1

/-- The host of a URL in lower case; a zone behind a percent sign keeps its case. Leading controls
and spaces do not count, nor do tabs and line ends anywhere. -/
def host? (url : String) : Option String :=
  let cs := url.toList.dropWhile fun c => c.toNat ≤ 0x20
  let cs := cs.filter fun c => !(c == '\t' || c == '\r' || c == '\n')
  let authority := authority (dropScheme cs)
  if !bracketsOk authority || authority.any hidesDelimiter then none
  else
    let raw := rawHost authority
    if raw.isEmpty then none
    else
      let name := raw.takeWhile (· != '%')
      some (Text.lower (String.ofList name) ++ String.ofList (raw.drop name.length))

end WebHarvest.Url
