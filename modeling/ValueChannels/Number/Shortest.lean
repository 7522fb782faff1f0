import ValueChannels.Number.Double

/-!
The shortest decimal of a double: the fewest digits that still round to it, and of those
the nearest. On the grid of `k` digits only the two neighbours of the value can round to
it, so the first grid on which one of them does gives the answer.
-/

namespace ValueChannels

/-- The number `digits * 10 ^ exponent`. -/
structure Decimal where
  digits : Nat
  exponent : Int
  deriving DecidableEq, Repr

/-- The positive numbers that round to one double, as fractions over a common denominator, with
the double itself inside. -/
structure RoundingInterval where
  low : Nat
  value : Nat
  high : Nat
  denominator : Nat
  /-- Whether the two ends round to the double as well. -/
  closed : Bool
  deriving Repr

namespace RoundingInterval

/-- The interval of a finite double other than zero. Below a power of two the next double is
only half as far away as above it. The ends are halves, which go to an even significand. -/
def ofDouble (x : Double) : RoundingInterval :=
  let quarter := 1 <<< x.scale
  let below := if x.significand = 1 <<< 52 ∧ 1 < x.scale then 1 else 2
  { low := (4 * x.significand - below) * quarter
    value := 4 * x.significand * quarter
    high := (4 * x.significand + 2) * quarter
    denominator := 4 * Double.unitsPerOne
    closed := x.significand % 2 == 0 }

/-- The same numbers counted in units of `10 ^ exponent`. -/
def inUnitsOf (interval : RoundingInterval) (exponent : Int) : RoundingInterval :=
  let factor := Nat.pow 10 (-exponent).toNat
  { interval with
    low := interval.low * factor
    value := interval.value * factor
    high := interval.high * factor
    denominator := interval.denominator * Nat.pow 10 exponent.toNat }

def holds (interval : RoundingInterval) (n : Nat) : Bool :=
  let point := n * interval.denominator
  if interval.closed then interval.low ≤ point && point ≤ interval.high
  else interval.low < point && point < interval.high

/-- The whole number of the interval nearest to its value, if there is one; of two at the same
distance the greater. -/
def nearest? (interval : RoundingInterval) : Option Nat :=
  let under := interval.value / interval.denominator
  let remainder := interval.value % interval.denominator
  match interval.holds under, interval.holds (under + 1) with
  | true, true => some (if 2 * remainder < interval.denominator then under else under + 1)
  | true, false => some under
  | false, true => some (under + 1)
  | false, false => none

/-- The number of digits in front of the point, zero or negative below one tenth: the value is
below `10 ^ pointPosition` and not below a tenth of it. -/
def pointPosition (interval : RoundingInterval) : Int :=
  let guess : Int :=
    ((Nat.toDigits 10 interval.value).length : Int) - (Nat.toDigits 10 interval.denominator).length
  let scaled := interval.inUnitsOf guess
  if scaled.denominator ≤ scaled.value then guess + 1 else guess

end RoundingInterval

/-- Seventeen digits always tell two doubles apart. -/
def greatestDigitCount : Nat := 17

/-- The shortest decimal that rounds to a finite double other than zero, sign aside. -/
def Double.shortest (x : Double) : Decimal :=
  let interval := RoundingInterval.ofDouble x
  let position := interval.pointPosition
  let attempt (count : Nat) : Option Decimal :=
    let exponent := position - (count + 1 : Nat)
    ((interval.inUnitsOf exponent).nearest?).map fun digits => ⟨digits, exponent⟩
  ((List.range greatestDigitCount).findSome? attempt).getD ⟨0, 0⟩

end ValueChannels
