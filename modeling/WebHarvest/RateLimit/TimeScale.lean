import WebHarvest.Failure
import WebHarvest.Number.Arithmetic

/-!
# Time scales

The clock counts whole microseconds. Whoever reads it works on a scale of their own: the exact scale
keeps the microseconds, so that sums and differences of times are exact; the rounded scale has
floating-point milliseconds, as hosts do, so that every step rounds to the nearest number and very
long spans of time do not exist. What the limiter does is defined for every scale.
-/

set_option autoImplicit false

namespace WebHarvest

/-- Arithmetic on the readings of a clock and on spans of time. -/
class TimeScale (τ : Type) where
  /-- The reading of the clock so many microseconds after its start. -/
  reading (micros : Int) : τ
  span (millis : Int) : Except Failure τ
  zero : τ
  plus : τ → τ → τ
  minus : τ → τ → τ
  atMost : τ → τ → Bool
  /-- The nearest whole number of milliseconds, a half going to the even neighbour. -/
  millis : τ → Int
  /-- A span in whole microseconds. -/
  micros : τ → Except Failure Int
  /-- How many microseconds a pause for a span takes. -/
  pause : τ → Except Failure Int
  /-- Whole milliseconds between two times of the clock. -/
  elapsed (start stop : Int) : Int

namespace TimeScale

/-- Microseconds as whole milliseconds, a half going to the even neighbour. -/
def wholeMillis (micros : Int) : Int :=
  let whole : Int := Double.roundHalfEven micros.natAbs 1000
  if micros < 0 then -whole else whole

instance exact : TimeScale Int where
  reading micros := micros
  span millis := .ok (millis * 1000)
  zero := 0
  plus := (· + ·)
  minus := (· - ·)
  atMost s t := s ≤ t
  millis := wholeMillis
  micros := .ok
  pause := .ok
  elapsed start stop := wholeMillis (stop - start)

/-- The integer nearest to a number that is not infinite. -/
private def rounded? (x : Double) : Except Failure Int :=
  match x.round? with
  | some n => .ok n
  | none => .error (.raise .overflow "cannot convert float infinity to integer")

def numberOf (n : Int) : Except Failure Double :=
  match Double.ofInt? n with
  | some x => .ok x
  | none => .error (.raise .overflow "int too large to convert to float")

instance rounded : TimeScale Double where
  reading micros := Double.ofFraction micros 1000
  span := numberOf
  zero := Double.zero false
  plus := Double.add
  minus := Double.sub
  atMost := Double.le
  millis x := x.round?.getD 0
  micros x := rounded? (x.mul (Double.ofInt 1000))
  pause x := rounded? ((x.divNat 1000).mul (Double.ofInt 1000000))
  elapsed start stop :=
    let seconds := (Double.ofFraction stop 1000000).sub (Double.ofFraction start 1000000)
    ((seconds.mul (Double.ofInt 1000)).round?).getD 0

end TimeScale

end WebHarvest
