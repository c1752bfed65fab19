/-!
# Blank characters and trimming

Two sets of blank characters are in use. Text that a host hands over is trimmed of Unicode white
space (`isBlank`); text read inside a page is trimmed of the page language's own set
(`isPageBlank`), which differs in a handful of characters. Trimming is the same operation for both.
-/

set_option autoImplicit false

namespace WebHarvest.Text

/-- Unicode white space, together with the four information separators U+001C to U+001F. -/
def isBlank (c : Char) : Bool :=
  let n := c.toNat
  (0x09 ≤ n && n ≤ 0x0d) || (0x1c ≤ n && n ≤ 0x20) || n == 0x85 || n == 0xa0 || n == 0x1680 ||
    (0x2000 ≤ n && n ≤ 0x200a) || n == 0x2028 || n == 0x2029 || n == 0x202f || n == 0x205f ||
    n == 0x3000

/-- What a page trims: the space separators, the line ends, the tabs, the form feed and the byte
order mark. -/
def isPageBlank (c : Char) : Bool :=
  let n := c.toNat
  (0x09 ≤ n && n ≤ 0x0d) || n == 0x20 || n == 0xa0 || n == 0x1680 ||
    (0x2000 ≤ n && n ≤ 0x200a) || n == 0x2028 || n == 0x2029 || n == 0x202f || n == 0x205f ||
    n == 0x3000 || n == 0xfeff

/-- Drops the longest run at the end whose characters all satisfy `p`. -/
def trimEnd (p : Char → Bool) (cs : List Char) : List Char := (cs.reverse.dropWhile p).reverse

/-- Drops the runs at both ends whose characters all satisfy `p`. -/
def trimBoth (p : Char → Bool) (cs : List Char) : List Char := trimEnd p (cs.dropWhile p)

def trim (s : String) : String := String.ofList (trimBoth isBlank s.toList)

/-- A text of a page without the blanks at its ends. -/
def trimPage (s : String) : String := String.ofList (trimBoth isPageBlank s.toList)

def isAllBlank (s : String) : Bool := s.toList.all isBlank

end WebHarvest.Text
