import WebHarvest.Number.Double

/-!
# Shortest decimal texts

The decimal text of a floating-point number has as few digits as let it be read back to the same
pattern and, among the texts of that length, is the nearest to the exact value. The digits are found
by exact integer arithmetic; how they are laid out (where positional notation ends, how an exponent
is written) is a `Layout`.
-/

set_option autoImplicit false

namespace WebHarvest.Double

/-- Digits of a positive number: it reads as `digits * 10 ^ exponent`. -/
structure Decimal where
  digits : Nat
  exponent : Int
  deriving DecidableEq, Repr

/-- The numbers that round to one pattern, in units of a quarter of the gap above it: `unitNum /
unitDen` is the unit, `low` and `high` are the ends of the interval and `closed` tells whether they
belong to it. -/
structure Neighbourhood where
  low : Nat
  value : Nat
  high : Nat
  closed : Bool
  unitNum : Nat
  unitDen : Nat

/-- The interval around `mantissa * 2 ^ exponent`. Below a power of two the gap is half as wide. -/
def neighbourhood (mantissa : Nat) (exponent : Int) : Neighbourhood where
  low := 4 * mantissa - (if mantissa == Nat.pow 2 52 && -1074 < exponent then 1 else 2)
  value := 4 * mantissa
  high := 4 * mantissa + 2
  closed := mantissa % 2 == 0
  unitNum := Nat.pow 2 (exponent - 2).toNat
  unitDen := Nat.pow 2 (2 - exponent).toNat

/-- Whether a multiple of `left / right` lies in the interval. -/
def Neighbourhood.inside (n : Neighbourhood) (left right d : Nat) : Bool :=
  if n.closed then n.low * right ≤ d * left && d * left ≤ n.high * right
  else n.low * right < d * left && d * left < n.high * right

/-- The multiple of `10 ^ k` inside the interval that is nearest to its value, if there is one. Only
the two neighbours of the value can be that multiple. -/
def Neighbourhood.onGrid? (n : Neighbourhood) (k : Int) : Option Nat :=
  let left := Nat.pow 10 k.toNat * n.unitDen
  let right := n.unitNum * Nat.pow 10 (-k).toNat
  let below := n.value * right / left
  let above := below + 1
  match n.inside left right below, n.inside left right above with
  | false, false => none
  | true, false => some below
  | false, true => some above
  | true, true =>
      let down := n.value * right - below * left
      let up := above * left - n.value * right
      if down < up then some below
      else if up < down then some above
      else some (below + below % 2)

/-- The first grid with a hit, from the grid of `10 ^ k` to finer ones. -/
def Neighbourhood.search (n : Neighbourhood) : Nat → Int → Option Decimal
  | 0, _ => none
  | steps + 1, k =>
      match n.onGrid? k with
      | some digits => some ⟨digits, k⟩
      | none => n.search steps (k - 1)

/-- The digits of the shortest text of `mantissa * 2 ^ exponent`. The search starts on a grid that
is coarser than the value and ends within twenty-two finer ones, since seventeen digits always
do. -/
def shortest (mantissa : Nat) (exponent : Int) : Decimal :=
  let top : Int := (Int.ofNat mantissa.log2 + exponent) * 30103 / 100000 + 2
  ((neighbourhood mantissa exponent).search 24 top).getD ⟨mantissa, 0⟩

structure Layout where
  /-- Numbers below `10 ^ smallest` are written with an exponent. -/
  smallest : Int
  /-- Numbers from `10 ^ largest` on are written with an exponent. -/
  largest : Int
  /-- The least number of digits of an exponent. -/
  exponentWidth : Nat
  nan : String
  /-- The text of infinity. -/
  infinity : String
  negativeInfinity : String
  /-- What follows the digits of a number without a fraction. -/
  whole : String := ".0"

def zeros (n : Nat) : String := String.ofList (List.replicate n '0')

def padded (width : Nat) (n : Nat) : String :=
  let text := toString n
  zeros (width - text.length) ++ text

/-- Lays out `d * 10 ^ e`. -/
def Layout.place (layout : Layout) (d : Decimal) : String :=
  let digits := toString d.digits
  let count : Int := digits.length
  -- The point stands after `point` digits.
  let point := count + d.exponent
  if point - 1 < layout.smallest || layout.largest ≤ point - 1 then
    let first := String.ofList (digits.toList.take 1)
    let rest := String.ofList (digits.toList.drop 1)
    let power := point - 1
    first ++ (if rest.isEmpty then "" else "." ++ rest) ++
      (if power < 0 then "e-" else "e+") ++ padded layout.exponentWidth power.natAbs
  else if point ≤ 0 then "0." ++ zeros (-point).toNat ++ digits
  else if count ≤ point then digits ++ zeros (point - count).toNat ++ layout.whole
  else
    String.ofList (digits.toList.take point.toNat) ++ "." ++
      String.ofList (digits.toList.drop point.toNat)

def Layout.render (layout : Layout) (x : Double) : String :=
  match x.meaning with
  | .nan => layout.nan
  | .infinite negative => if negative then layout.negativeInfinity else layout.infinity
  | .finite negative mantissa exponent =>
      (if negative then "-" else "") ++
        (if mantissa == 0 then "0" ++ layout.whole else layout.place (shortest mantissa exponent))

/-- Numbers in messages: positional from 0.0001 up to 10^16, exponents of two digits or more. -/
def displayLayout : Layout where
  smallest := -4
  largest := 16
  exponentWidth := 2
  nan := "nan"
  infinity := "inf"
  negativeInfinity := "-inf"

/-- Numbers in ledger lines and session files: positional from 0.00001 up to 10^16, exponents as
short as they come; what is not finite has no text of its own there. -/
def ledgerLayout : Layout where
  smallest := -5
  largest := 16
  exponentWidth := 1
  nan := "null"
  infinity := "null"
  negativeInfinity := "null"

/-- Numbers in cookie files: as in messages, with names of their own for what is not finite. -/
def cookieLayout : Layout := { displayLayout with
  nan := "NaN"
  infinity := "Infinity"
  negativeInfinity := "-Infinity" }

/-- Numbers inside a page: positional from 0.000001 up to 10^21, without a point where there is no
fraction. -/
def pageLayout : Layout where
  smallest := -6
  largest := 21
  exponentWidth := 1
  nan := "NaN"
  infinity := "Infinity"
  negativeInfinity := "-Infinity"
  whole := ""

end WebHarvest.Double
