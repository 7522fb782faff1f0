/-!
Double-precision numbers as their 64 bits: a sign, an exponent field of 11 bits and a
fraction of 52. A finite double is `significand * 2 ^ scale / 2 ^ 1075` up to its sign,
which is exact in natural numbers. Main statement: rounding picks the nearest quotient.
-/

namespace ValueChannels

/-- A binary floating-point number of 64 bits. Equality of doubles is equality of bits; the
comparison of numbers is `Double.sameNumber`. -/
structure Double where
  bits : UInt64
  deriving DecidableEq, Inhabited

namespace Double

def negative (x : Double) : Bool :=
  decide (1 <<< 63 ≤ x.bits.toNat)

def exponentField (x : Double) : Nat :=
  x.bits.toNat / (1 <<< 52) % (1 <<< 11)

def fraction (x : Double) : Nat :=
  x.bits.toNat % (1 <<< 52)

def isFinite (x : Double) : Bool :=
  x.exponentField != 2047

def isNaN (x : Double) : Bool :=
  x.exponentField == 2047 && x.fraction != 0

def isInfinite (x : Double) : Bool :=
  x.exponentField == 2047 && x.fraction == 0

/-- The digits in front of the power of two; the hidden bit counts unless the exponent field
is zero. -/
def significand (x : Double) : Nat :=
  if x.exponentField = 0 then x.fraction else x.fraction + (1 <<< 52)

/-- The power of two behind the significand, counted from `2 ^ (-1075)`. -/
def scale (x : Double) : Nat :=
  max 1 x.exponentField

/-- Numerator of the magnitude of a finite double over the denominator `unitsPerOne`. -/
def magnitude (x : Double) : Nat :=
  x.significand <<< x.scale

/-- The denominator all finite magnitudes share. -/
def unitsPerOne : Nat :=
  1 <<< 1075

/-- Equality of numbers: a NaN differs from every double, and both zeros are the same number. -/
def sameNumber (x y : Double) : Bool :=
  !x.isNaN && !y.isNaN && (x == y || (x.isFinite && y.isFinite && x.magnitude == 0 && y.magnitude == 0))

def ofWord (negative : Bool) (word : Nat) : Double :=
  ⟨UInt64.ofNat ((if negative then 1 <<< 63 else 0) + word)⟩

def zero (negative : Bool) : Double :=
  ofWord negative 0

def infinityWord : Nat :=
  2047 <<< 52

def infinity (negative : Bool) : Double :=
  ofWord negative infinityWord

def notANumber (negative : Bool) : Double :=
  ofWord negative (infinityWord + (1 <<< 51))

/-- The whole number a double is, if it is one. -/
def whole? (x : Double) : Option Int :=
  if x.isFinite && x.magnitude % unitsPerOne == 0 then
    let size : Int := (x.magnitude / unitsPerOne : Nat)
    some (if x.negative then -size else size)
  else
    none

/-- The quotient rounded to the nearest whole number, a half to the even neighbour. -/
def roundQuotient (numerator denominator : Nat) : Nat :=
  let quotient := numerator / denominator
  let twice := 2 * (numerator % denominator)
  if twice < denominator ∨ (twice = denominator ∧ quotient % 2 = 0) then quotient else quotient + 1

/-- The double nearest to `numerator / denominator`, a half to the even neighbour. The scale is
the least one at which the quotient fits 53 binary digits; a quotient that rounds up to
`2 ^ 53` carries into the exponent field by itself. -/
def ofRatio (negative : Bool) (numerator denominator : Nat) : Double :=
  let units := numerator * unitsPerOne
  let scale := max 1 (Nat.log2 (units / denominator) - 52)
  let word := (scale - 1) <<< 52 + roundQuotient units (denominator <<< scale)
  ofWord negative (min word infinityWord)

def ofInt (n : Int) : Double :=
  ofRatio (decide (n < 0)) n.natAbs 1

/-- The double that a single-precision number of 32 bits stands for. A NaN keeps its payload and
becomes quiet. -/
def ofSingle (bits : UInt32) : Double :=
  let negative := decide (1 <<< 31 ≤ bits.toNat)
  let field := bits.toNat / (1 <<< 23) % (1 <<< 8)
  let fraction := bits.toNat % (1 <<< 23)
  if field = 255 then
    if fraction = 0 then infinity negative
    else ofWord negative (infinityWord + (1 <<< 51) + (fraction <<< 29) % (1 <<< 51))
  else if field = 0 then ofRatio negative fraction (1 <<< 149)
  else ofRatio negative ((fraction + (1 <<< 23)) <<< field) (1 <<< 150)

theorem roundQuotient_mul (quotient denominator : Nat) (positive : 0 < denominator) :
    roundQuotient (quotient * denominator) denominator = quotient := by
  simp [roundQuotient, Nat.mul_div_cancel _ positive, positive]

/-- Rounding misses the quotient by at most one half. -/
theorem roundQuotient_within_half (numerator denominator : Nat) (positive : 0 < denominator) :
    2 * numerator ≤ (2 * roundQuotient numerator denominator + 1) * denominator ∧
      (2 * roundQuotient numerator denominator) * denominator ≤ 2 * numerator + denominator := by
  have parts := Nat.div_add_mod numerator denominator
  have small := Nat.mod_lt numerator positive
  simp only [roundQuotient]
  generalize numerator / denominator = quotient at *
  generalize numerator % denominator = remainder at *
  have expand : denominator * quotient = quotient * denominator := Nat.mul_comm _ _
  split
  · rename_i down
    constructor
    · rw [Nat.add_mul, Nat.mul_assoc]; omega
    · rw [Nat.mul_assoc]; omega
  · rename_i up
    have large : denominator ≤ 2 * remainder := by
      rcases Nat.lt_or_ge (2 * remainder) denominator with less | most
      · exact absurd (Or.inl less) up
      · exact most
    constructor
    · rw [Nat.add_mul, Nat.mul_assoc, Nat.add_mul]; omega
    · rw [Nat.mul_assoc, Nat.add_mul]; omega

end Double

end ValueChannels
