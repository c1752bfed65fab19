/-!
# Binary floating-point numbers

A `Double` is the 64-bit pattern of a binary floating-point number. All arithmetic on it is exact
arithmetic on integers: a pattern is taken apart into mantissa and exponent, and a ratio of integers
is rounded to the nearest pattern, a tie going to the even mantissa. Powers are written `Nat.pow`,
so that they are the same functions whatever else is imported.
-/

set_option autoImplicit false

namespace WebHarvest

/-- A binary floating-point number, as its bits. -/
structure Double where
  bits : UInt64
  deriving DecidableEq, Inhabited, Repr

namespace Double

/-- What a pattern stands for. A finite number is `mantissa * 2 ^ exponent`, with its sign apart, so
that the two zeros differ. -/
inductive Meaning where
  | nan
  | infinite (negative : Bool)
  | finite (negative : Bool) (mantissa : Nat) (exponent : Int)
  deriving DecidableEq, Repr

def isNegative (x : Double) : Bool := x.bits.toNat / Nat.pow 2 63 == 1

def meaning (x : Double) : Meaning :=
  let biased := x.bits.toNat / Nat.pow 2 52 % 2048
  let fraction := x.bits.toNat % Nat.pow 2 52
  if biased == 2047 then
    if fraction == 0 then .infinite x.isNegative else .nan
  else if biased == 0 then .finite x.isNegative fraction (-1074)
  else .finite x.isNegative (fraction + Nat.pow 2 52) (Int.ofNat biased - 1075)

def assemble (negative : Bool) (magnitude : Nat) : Double :=
  ⟨UInt64.ofNat ((if negative then Nat.pow 2 63 else 0) + magnitude)⟩

/-- The usual pattern of "not a number". -/
def notANumber : Double := ⟨0x7ff8000000000000⟩

def infinity (negative : Bool) : Double := assemble negative (2047 * Nat.pow 2 52)

def zero (negative : Bool) : Double := assemble negative 0

/-- `num / den` to the nearest integer, a tie to the even one. -/
def roundHalfEven (num den : Nat) : Nat :=
  let quotient := num / den
  let remainder := num % den
  if 2 * remainder < den then quotient
  else if den < 2 * remainder then quotient + 1
  else quotient + quotient % 2

/-- `num / den` in units of `2 ^ exponent`. -/
def scaledRatio (num den : Nat) (exponent : Int) : Nat × Nat :=
  if 0 ≤ exponent then (num, den * Nat.pow 2 exponent.toNat)
  else (num * Nat.pow 2 (-exponent).toNat, den)

/-- The exponent at which `num / den` has a full mantissa, or the least one. -/
def ratioExponent (num den : Nat) : Int :=
  let guess : Int := Int.ofNat num.log2 - Int.ofNat den.log2 - 52
  let high := scaledRatio num den guess
  -- The quotient at `guess` lies between 2^51 and 2^53; one step down makes it a full mantissa.
  max (-1074) (if high.1 / high.2 < Nat.pow 2 52 then guess - 1 else guess)

/-- The pattern nearest to `num / den`, for a positive `den`. -/
def ofRatio (negative : Bool) (num den : Nat) : Double :=
  if num == 0 then zero negative
  else
    let exponent := ratioExponent num den
    let (n, d) := scaledRatio num den exponent
    let mantissa := roundHalfEven n d
    let (mantissa, exponent) :=
      if mantissa == Nat.pow 2 53 then (Nat.pow 2 52, exponent + 1) else (mantissa, exponent)
    if mantissa < Nat.pow 2 52 then assemble negative mantissa
    else if 971 < exponent then infinity negative
    else assemble negative ((exponent + 1075).toNat * Nat.pow 2 52 + (mantissa - Nat.pow 2 52))

/-- The pattern nearest to `digits * 10 ^ exponent`. Exponents that are out of reach whatever the
digits are answered without computing the power. -/
def ofDecimal (negative : Bool) (digits : Nat) (exponent : Int) : Double :=
  let size := Int.ofNat digits.log2
  if digits == 0 then zero negative
  else if 400 < exponent then infinity negative
  else if size + 3 * exponent < -3600 then zero negative
  else if 0 ≤ exponent then ofRatio negative (digits * Nat.pow 10 exponent.toNat) 1
  else ofRatio negative digits (Nat.pow 10 (-exponent).toNat)

def ofInt (n : Int) : Double := ofRatio (decide (n < 0)) n.natAbs 1

def isNaN (x : Double) : Bool := x.meaning == .nan

def isFinite (x : Double) : Bool :=
  match x.meaning with
  | .finite .. => true
  | _ => false

def isZero (x : Double) : Bool :=
  match x.meaning with
  | .finite _ mantissa _ => mantissa == 0
  | _ => false

/-- The integer that a finite number without a fraction stands for. -/
def toInt? (x : Double) : Option Int :=
  match x.meaning with
  | .finite negative mantissa exponent =>
      let magnitude : Option Nat :=
        if 0 ≤ exponent then some (mantissa * Nat.pow 2 exponent.toNat)
        else
          let unit := Nat.pow 2 (-exponent).toNat
          if mantissa % unit == 0 then some (mantissa / unit) else none
      magnitude.map fun m => if negative then -(m : Int) else m
  | _ => none

/-- Compares a number with an integer exactly; `none` for "not a number". -/
def compareInt (x : Double) (n : Int) : Option Ordering :=
  match x.meaning with
  | .nan => none
  | .infinite negative => some (if negative then .lt else .gt)
  | .finite negative mantissa exponent =>
      let signed : Int := if negative then -(mantissa : Int) else mantissa
      some <|
        if 0 ≤ exponent then compare (signed * Int.ofNat (Nat.pow 2 exponent.toNat)) n
        else compare signed (n * Int.ofNat (Nat.pow 2 (-exponent).toNat))

/-- Numeric equality: the two zeros agree, and "not a number" agrees with nothing. -/
def same (x y : Double) : Bool := !x.isNaN && (x == y || (x.isZero && y.isZero))

end Double

end WebHarvest
