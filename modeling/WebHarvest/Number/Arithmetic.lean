import WebHarvest.Number.Double

/-!
# Arithmetic on binary floating-point numbers

Every operation gives the number nearest to the exact result, a tie going to the even mantissa. The
exact result is a ratio of integers, which `Double.ofRatio` rounds once. The signs of zeros and the
results on infinities follow the usual rules for binary arithmetic.
-/

set_option autoImplicit false

namespace WebHarvest.Double

private def signed (negative : Bool) (mantissa : Nat) : Int :=
  if negative then -(mantissa : Int) else mantissa

/-- The number nearest to `mantissa * 2 ^ exponent`; `negativeZero` tells the sign of a zero. -/
def ofScaled (mantissa exponent : Int) (negativeZero : Bool) : Double :=
  if mantissa == 0 then zero negativeZero
  else ofRatio (decide (mantissa < 0)) (mantissa.natAbs * Nat.pow 2 exponent.toNat)
    (Nat.pow 2 (-exponent).toNat)

def neg (x : Double) : Double :=
  match x.meaning with
  | .nan => x
  | .infinite negative => infinity !negative
  | .finite negative mantissa exponent =>
      if mantissa == 0 then zero !negative
      else ofScaled (-(signed negative mantissa)) exponent false

/-- The sum. Both terms are written with the smaller exponent, where adding is exact. -/
def add (x y : Double) : Double :=
  match x.meaning, y.meaning with
  | .nan, _ => notANumber
  | _, .nan => notANumber
  | .infinite s, .infinite t => if s == t then infinity s else notANumber
  | .infinite s, _ => infinity s
  | _, .infinite t => infinity t
  | .finite s m e, .finite t n f =>
      let low := min e f
      ofScaled (signed s m * Int.ofNat (Nat.pow 2 (e - low).toNat) +
        signed t n * Int.ofNat (Nat.pow 2 (f - low).toNat)) low (s && t)

def sub (x y : Double) : Double := x.add y.neg

def mul (x y : Double) : Double :=
  match x.meaning, y.meaning with
  | .nan, _ => notANumber
  | _, .nan => notANumber
  | .infinite s, .infinite t => infinity (s != t)
  | .infinite s, .finite t n _ => if n == 0 then notANumber else infinity (s != t)
  | .finite s m _, .infinite t => if m == 0 then notANumber else infinity (s != t)
  | .finite s m e, .finite t n f =>
      ofScaled (signed s m * signed t n) (e + f) (s != t)

/-- The number nearest to `num / den`, for a positive `den`. -/
def ofFraction (num : Int) (den : Nat) : Double := ofRatio (decide (num < 0)) num.natAbs den

def divNat (x : Double) (den : Nat) : Double :=
  match x.meaning with
  | .finite negative mantissa exponent =>
      ofRatio negative (mantissa * Nat.pow 2 exponent.toNat)
        (Nat.pow 2 (-exponent).toNat * den)
  | _ => x

def round? (x : Double) : Option Int :=
  match x.meaning with
  | .finite negative mantissa exponent =>
      some <| signed negative <|
        if 0 ≤ exponent then mantissa * Nat.pow 2 exponent.toNat
        else roundHalfEven mantissa (Nat.pow 2 (-exponent).toNat)
  | _ => none

private def clamp (low high n : Int) : Int := max low (min n high)

/-- The greatest integer that is not above a number, held between two bounds. An infinity is at its
bound; "not a number" counts as zero. -/
def floorWithin (low high : Int) (x : Double) : Int :=
  match x.meaning with
  | .nan => 0
  | .infinite negative => if negative then low else high
  | .finite negative mantissa exponent =>
      clamp low high <|
        if 0 ≤ exponent then signed negative mantissa * Int.ofNat (Nat.pow 2 exponent.toNat)
        else (signed negative mantissa).fdiv (Nat.pow 2 (-exponent).toNat)

/-- The nearest integer, a half going away from zero, held between two bounds. An infinity is at its
bound; "not a number" counts as zero. -/
def roundWithin (low high : Int) (x : Double) : Int :=
  match x.meaning with
  | .nan => 0
  | .infinite negative => if negative then low else high
  | .finite negative mantissa exponent =>
      clamp low high <| signed negative <|
        if 0 ≤ exponent then mantissa * Nat.pow 2 exponent.toNat
        else
          let unit := Nat.pow 2 (-exponent).toNat
          (2 * mantissa + unit) / (2 * unit)

/-- The integer that an integer is rounded to when it has to be a number; `none` when it is out of
the range of numbers. -/
def ofInt? (n : Int) : Option Double :=
  let x := ofInt n
  if x.isFinite then some x else none

/-- The order of numbers; "not a number" is not below anything. -/
def le (x y : Double) : Bool :=
  match x.meaning, y.meaning with
  | .nan, _ => false
  | _, .nan => false
  | .infinite s, .infinite t => s || !t
  | .infinite s, .finite .. => s
  | .finite .., .infinite t => !t
  | .finite s m e, .finite t n f =>
      let low := min e f
      decide (signed s m * Int.ofNat (Nat.pow 2 (e - low).toNat) ≤
        signed t n * Int.ofNat (Nat.pow 2 (f - low).toNat))

end WebHarvest.Double
