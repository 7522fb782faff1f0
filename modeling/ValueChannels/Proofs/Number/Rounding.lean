import Mathlib.Algebra.Group.Nat.Defs
import ValueChannels.Number.Shortest

/-!
Rounding a quotient to a double. Whatever lies in the rounding interval of a double rounds to that
double, also where the interval reaches below a power of two into the finer steps. Main statement:
`ofRatio_of_contains`.
-/

namespace ValueChannels

namespace Double

/-- The lower 63 bits of a finite double. -/
def word (x : Double) : Nat :=
  (x.scale - 1) * 2 ^ 52 + x.significand

theorem word_eq (x : Double) : x.word = x.bits.toNat % 2 ^ 63 := by
  have bounded := x.bits.toNat_lt
  rw [word, scale, significand]
  by_cases zero : x.exponentField = 0
  · rw [if_pos zero]
    simp only [exponentField, fraction, Nat.reduceShiftLeft] at zero ⊢
    omega
  · rw [if_neg zero]
    simp only [exponentField, fraction, Nat.reduceShiftLeft] at zero ⊢
    omega

theorem ofWord_word (x : Double) : ofWord x.negative x.word = x := by
  have bounded := x.bits.toNat_lt
  rw [ofWord, word_eq]
  obtain ⟨bits⟩ := x
  congr 1
  apply UInt64.toNat.inj
  rw [UInt64.toNat_ofNat']
  by_cases high : (⟨bits⟩ : Double).negative = true
  · rw [if_pos high]
    simp only [negative, Nat.reduceShiftLeft, decide_eq_true_eq] at high ⊢
    dsimp only at bounded
    omega
  · rw [if_neg high]
    simp only [negative, Nat.reduceShiftLeft, decide_eq_true_eq] at high
    dsimp only
    omega

theorem infinity_of_isInfinite {x : Double} (infinite : x.isInfinite = true) :
    infinity x.negative = x := by
  have same : x.word = infinityWord := by
    rw [word_eq]
    simp only [isInfinite, Bool.and_eq_true, beq_iff_eq] at infinite
    simp only [exponentField, fraction, Nat.reduceShiftLeft] at infinite
    simp only [infinityWord, Nat.reduceShiftLeft]
    omega
  rw [infinity, ← same, ofWord_word]

theorem isFinite_of_isNaN {x : Double} (number : x.isNaN = false)
    (bounded : x.isInfinite = false) : x.isFinite = true := by
  simp only [isNaN, isInfinite, isFinite, bne] at number bounded ⊢
  cases top : x.exponentField == 2047 with
  | false => rfl
  | true =>
      simp only [top, Bool.true_and, Bool.not_eq_false'] at number bounded
      rw [number] at bounded
      cases bounded

theorem zero_of_magnitude {x : Double} (nothing : x.magnitude = 0) : zero x.negative = x := by
  have small : x.significand = 0 := by
    rw [magnitude, Nat.shiftLeft_eq] at nothing
    exact (Nat.mul_eq_zero.mp nothing).resolve_right (Nat.ne_of_gt (Nat.two_pow_pos _))
  have field : x.exponentField = 0 := by
    rw [significand] at small
    split at small
    · assumption
    · simp at small
  have same : x.word = 0 := by
    rw [word, scale, field, small]
    rfl
  rw [zero, ← same, ofWord_word]

theorem significand_lt (x : Double) : x.significand < 2 ^ 53 := by
  simp only [significand, fraction, Nat.reduceShiftLeft]
  split <;> omega

theorem le_significand {x : Double} (normal : 1 < x.scale) : 2 ^ 52 ≤ x.significand := by
  simp only [scale] at normal
  simp only [significand, Nat.reduceShiftLeft]
  split <;> omega

theorem scale_pos (x : Double) : 0 < x.scale :=
  Nat.lt_of_lt_of_le Nat.zero_lt_one (Nat.le_max_left _ _)

theorem scale_le {x : Double} (finite : x.isFinite = true) : x.scale ≤ 2046 := by
  have field : x.exponentField ≠ 2047 := by simpa [isFinite] using finite
  simp only [exponentField, Nat.reduceShiftLeft] at field
  simp only [scale, exponentField, Nat.reduceShiftLeft]
  omega

theorem one_shiftLeft_pos (count : Nat) : 0 < 1 <<< count := by
  rw [Nat.one_shiftLeft]
  exact Nat.two_pow_pos count

theorem unitsPerOne_pos : 0 < unitsPerOne :=
  one_shiftLeft_pos 1075

theorem roundQuotient_eq {numerator denominator whole : Nat} (positive : 0 < denominator)
    (above : 2 * (denominator * whole) ≤ 2 * numerator + denominator)
    (below : 2 * numerator ≤ 2 * (denominator * whole) + denominator)
    (tie : whole % 2 = 1 → 2 * (denominator * whole) < 2 * numerator + denominator ∧
      2 * numerator < 2 * (denominator * whole) + denominator) :
    roundQuotient numerator denominator = whole := by
  have parts := Nat.div_add_mod numerator denominator
  have small := Nat.mod_lt numerator positive
  simp only [roundQuotient]
  generalize numerator / denominator = quotient at *
  generalize numerator % denominator = remainder at *
  have least : whole ≤ quotient + 1 := by
    refine Nat.not_lt.mp fun far => ?_
    have product := Nat.mul_le_mul_left denominator (show quotient + 2 ≤ whole by omega)
    rw [Nat.mul_add] at product
    omega
  have most : quotient ≤ whole := by
    refine Nat.not_lt.mp fun far => ?_
    have product := Nat.mul_le_mul_left denominator (show whole + 1 ≤ quotient by omega)
    rw [Nat.mul_add] at product
    omega
  -- The number is rounded up if it is above the quotient, and down if it is the quotient.
  rcases Nat.lt_or_ge quotient whole with less | more
  · have next : whole = quotient + 1 := by omega
    subst next
    rw [Nat.mul_add] at above below tie
    rw [if_neg]
    intro down
    rcases down with less | ⟨half, even⟩
    · omega
    · have strict := tie (by omega)
      omega
  · have same : whole = quotient := by omega
    subst same
    rw [if_pos]
    by_cases half : 2 * remainder = denominator
    · refine Or.inr ⟨half, ?_⟩
      rcases Nat.mod_two_eq_zero_or_one whole with even | odd
      · exact even
      · have strict := tie odd
        omega
    · omega

/-- The scale that rounding chooses is the one at which the quotient fits 53 binary digits. -/
theorem chosen_scale {numerator denominator scale : Nat} (positive : 0 < denominator)
    (some : 0 < scale) (low : scale = 1 ∨ denominator * 2 ^ (52 + scale) ≤ numerator)
    (high : numerator < denominator * 2 ^ (53 + scale)) :
    max 1 (Nat.log2 (numerator / denominator) - 52) = scale := by
  have below : numerator / denominator < 2 ^ (53 + scale) :=
    Nat.div_lt_of_lt_mul high
  have most : Nat.log2 (numerator / denominator) - 52 ≤ scale := by
    by_cases zero : numerator / denominator = 0
    · rw [zero]
      exact Nat.zero_le _
    · have digits := (Nat.log2_lt zero).mpr below
      omega
  rcases low with one | enough
  · omega
  · have least : 2 ^ (52 + scale) ≤ numerator / denominator := by
      rw [Nat.le_div_iff_mul_le positive, Nat.mul_comm]
      exact enough
    have nonzero : numerator / denominator ≠ 0 :=
      Nat.ne_of_gt (Nat.lt_of_lt_of_le (Nat.two_pow_pos _) least)
    have digits := (Nat.le_log2 nonzero).mpr least
    omega

end Double

namespace RoundingInterval

/-- Whether a quotient lies in the interval. -/
def Contains (interval : RoundingInterval) (numerator denominator : Nat) : Prop :=
  let point := numerator * interval.denominator
  if interval.closed then
    interval.low * denominator ≤ point ∧ point ≤ interval.high * denominator
  else interval.low * denominator < point ∧ point < interval.high * denominator

theorem Contains.congr {interval : RoundingInterval} {numerator denominator numerator'
    denominator' : Nat} (contains : interval.Contains numerator denominator)
    (positive : 0 < denominator) (positive' : 0 < denominator')
    (same : numerator' * denominator = numerator * denominator') :
    interval.Contains numerator' denominator' := by
  have scaled (bound : Nat) : bound * denominator' * denominator = bound * denominator * denominator' :=
    Nat.mul_right_comm _ _ _
  have point : numerator' * interval.denominator * denominator =
      numerator * interval.denominator * denominator' := by
    rw [Nat.mul_right_comm, same, Nat.mul_right_comm]
  unfold Contains at contains ⊢
  dsimp only at contains ⊢
  split at contains
  · rename_i closed
    rw [if_pos closed]
    constructor
    · apply Nat.le_of_mul_le_mul_right _ positive
      rw [scaled, point]
      exact Nat.mul_le_mul_right _ contains.1
    · apply Nat.le_of_mul_le_mul_right _ positive
      rw [scaled, point]
      exact Nat.mul_le_mul_right _ contains.2
  · rename_i strict
    rw [if_neg strict]
    constructor
    · apply Nat.lt_of_mul_lt_mul_right (a := denominator)
      rw [scaled, point]
      exact Nat.mul_lt_mul_of_pos_right contains.1 positive'
    · apply Nat.lt_of_mul_lt_mul_right (a := denominator)
      rw [scaled, point]
      exact Nat.mul_lt_mul_of_pos_right contains.2 positive'

theorem Contains.bounds {interval : RoundingInterval} {numerator denominator : Nat}
    (contains : interval.Contains numerator denominator) :
    interval.low * denominator ≤ numerator * interval.denominator ∧
      numerator * interval.denominator ≤ interval.high * denominator := by
  unfold Contains at contains
  dsimp only at contains
  split at contains
  · exact contains
  · exact ⟨Nat.le_of_lt contains.1, Nat.le_of_lt contains.2⟩

theorem holds_eq_true {interval : RoundingInterval} {n : Nat} :
    interval.holds n = true ↔ interval.Contains n 1 := by
  cases closed : interval.closed with
  | true => simp [holds, Contains, closed]
  | false => simp [holds, Contains, closed]

theorem contains_inUnitsOf {interval : RoundingInterval} {exponent : Int} {n : Nat} :
    (interval.inUnitsOf exponent).Contains n 1 ↔
      interval.Contains (n * 10 ^ exponent.toNat) (10 ^ (-exponent).toNat) := by
  have point : n * 10 ^ exponent.toNat * interval.denominator =
      n * (interval.denominator * 10 ^ exponent.toNat) := by
    rw [Nat.mul_assoc, Nat.mul_comm (10 ^ _)]
  cases closed : interval.closed with
  | true => simp [Contains, inUnitsOf, closed, point]
  | false => simp [Contains, inUnitsOf, closed, point]

end RoundingInterval

namespace Double

/-- A quotient in the rounding interval of a double lies between the ends of the interval, counted
in quarters of the double's last place; on an end only if its significand is even. -/
theorem quarters_of_contains {x : Double} {numerator denominator step : Nat}
    (contains : (RoundingInterval.ofDouble x).Contains numerator denominator)
    (last : denominator <<< x.scale = step) :
    ∃ below, (below = 1 ∧ x.significand = 2 ^ 52 ∨
        below = 2 ∧ ¬(x.significand = 2 ^ 52 ∧ 1 < x.scale)) ∧
      4 * (step * x.significand) ≤ 4 * (numerator * unitsPerOne) + below * step ∧
      4 * (numerator * unitsPerOne) ≤ 4 * (step * x.significand) + 2 * step ∧
      (x.significand % 2 = 1 →
        4 * (step * x.significand) < 4 * (numerator * unitsPerOne) + below * step ∧
        4 * (numerator * unitsPerOne) < 4 * (step * x.significand) + 2 * step) := by
  -- The bounds are counted in quarters of a step: two on either side, but one below a power of two.
  let below := if x.significand = 1 <<< 52 ∧ 1 < x.scale then 1 else 2
  have shape : below = 1 ∧ x.significand = 2 ^ 52 ∨
      below = 2 ∧ ¬(x.significand = 2 ^ 52 ∧ 1 < x.scale) := by
    by_cases power : x.significand = 1 <<< 52 ∧ 1 < x.scale
    · exact Or.inl ⟨if_pos power, power.1⟩
    · exact Or.inr ⟨if_neg power, power⟩
  have place (count : Nat) : count * (1 <<< x.scale) * denominator = count * step := by
    rw [← last, Nat.shiftLeft_eq, Nat.shiftLeft_eq, Nat.one_mul, Nat.mul_assoc,
      Nat.mul_comm denominator]
  have low : (RoundingInterval.ofDouble x).low * denominator =
      4 * (step * x.significand) - below * step := by
    show (4 * x.significand - below) * (1 <<< x.scale) * denominator = _
    rw [place, Nat.sub_mul, Nat.mul_assoc, Nat.mul_comm x.significand]
  have high : (RoundingInterval.ofDouble x).high * denominator =
      4 * (step * x.significand) + 2 * step := by
    show (4 * x.significand + 2) * (1 <<< x.scale) * denominator = _
    rw [place, Nat.add_mul, Nat.mul_assoc, Nat.mul_comm x.significand]
  have point : numerator * (RoundingInterval.ofDouble x).denominator =
      4 * (numerator * unitsPerOne) := by
    show numerator * (4 * unitsPerOne) = _
    rw [Nat.mul_left_comm]
  have bounds := contains.bounds
  rw [low, high, point] at bounds
  refine ⟨below, shape, by omega, bounds.2, ?_⟩
  intro odd
  have isOpen : (RoundingInterval.ofDouble x).closed = false := by
    show (x.significand % 2 == 0) = false
    rw [odd]
    rfl
  simp only [RoundingInterval.Contains, isOpen, low, high, point, Bool.false_eq_true, if_false]
    at contains
  omega

theorem word_of_scale {units denominator scale whole : Nat} (positive : 0 < denominator)
    (some : 0 < scale) (low : scale = 1 ∨ denominator <<< scale * 2 ^ 52 ≤ units)
    (high : units < denominator <<< scale * 2 ^ 53)
    (above : 2 * (denominator <<< scale * whole) ≤ 2 * units + denominator <<< scale)
    (below : 2 * units ≤ 2 * (denominator <<< scale * whole) + denominator <<< scale)
    (tie : whole % 2 = 1 →
      2 * (denominator <<< scale * whole) < 2 * units + denominator <<< scale ∧
        2 * units < 2 * (denominator <<< scale * whole) + denominator <<< scale) :
    (max 1 (Nat.log2 (units / denominator) - 52) - 1) <<< 52 +
        roundQuotient units (denominator <<< max 1 (Nat.log2 (units / denominator) - 52)) =
      (scale - 1) * 2 ^ 52 + whole := by
  have scaled (count : Nat) : denominator * 2 ^ (count + scale) =
      denominator <<< scale * 2 ^ count := by
    rw [Nat.shiftLeft_eq, Nat.add_comm, Nat.pow_add, Nat.mul_assoc]
  have chosen : max 1 (Nat.log2 (units / denominator) - 52) = scale := by
    apply chosen_scale positive some
    · rw [scaled]
      exact low
    · rw [scaled]
      exact high
  have step : 0 < denominator <<< scale := by
    rw [Nat.shiftLeft_eq]
    exact Nat.mul_pos positive (Nat.two_pow_pos _)
  rw [chosen, roundQuotient_eq step above below tie, Nat.shiftLeft_eq]

/-- What lies in the rounding interval of a double rounds to the word of that double. -/
theorem word_of_contains {x : Double} {numerator denominator : Nat} (positive : 0 < denominator)
    (contains : (RoundingInterval.ofDouble x).Contains numerator denominator) :
    (max 1 (Nat.log2 (numerator * unitsPerOne / denominator) - 52) - 1) <<< 52 +
        roundQuotient (numerator * unitsPerOne)
          (denominator <<< max 1 (Nat.log2 (numerator * unitsPerOne / denominator) - 52)) =
      x.word := by
  obtain ⟨below, shape, above, under, tie⟩ := quarters_of_contains contains rfl
  have bound := x.significand_lt
  generalize numerator * unitsPerOne = units at *
  have upper := Nat.mul_le_mul_left (denominator <<< x.scale)
    (show x.significand ≤ 2 ^ 53 - 1 by omega)
  by_cases same : x.scale = 1 ∨ denominator <<< x.scale * 2 ^ 52 ≤ units
  · have most : below * denominator <<< x.scale ≤ 2 * denominator <<< x.scale :=
      Nat.mul_le_mul_right _ (by omega)
    have step : 0 < denominator <<< x.scale := by
      rw [Nat.shiftLeft_eq]
      exact Nat.mul_pos positive (Nat.two_pow_pos _)
    apply word_of_scale positive x.scale_pos same
    · omega
    · omega
    · omega
    · intro odd
      have strict := tie odd
      omega
  · -- Below a power of two the steps are half as wide, and rounding goes up to that power.
    rw [not_or, Nat.not_le] at same
    obtain ⟨wide, less⟩ := same
    have lowest := x.scale_pos
    obtain ⟨scale, next⟩ : ∃ scale, x.scale = scale + 1 := ⟨x.scale - 1, by omega⟩
    have least := le_significand (show 1 < x.scale by omega)
    have half : denominator <<< x.scale = 2 * denominator <<< scale := by
      rw [next, Nat.shiftLeft_eq, Nat.shiftLeft_eq, Nat.pow_succ, ← Nat.mul_assoc, Nat.mul_comm 2]
    have power : below = 1 ∧ x.significand = 2 ^ 52 := by
      rcases shape with one | ⟨two, other⟩
      · exact one
      · have more := Nat.mul_le_mul_left (denominator <<< x.scale)
          (show 2 ^ 52 + 1 ≤ x.significand by omega)
        rw [two] at above
        omega
    rw [power.1, power.2, half] at above
    rw [power.2, half] at under
    rw [half, Nat.mul_comm 2, Nat.mul_assoc, ← Nat.pow_succ'] at less
    have carried : x.word = (scale - 1) * 2 ^ 52 + 2 ^ 53 := by
      rw [word, power.2, next]
      omega
    rw [carried]
    apply word_of_scale positive
    · omega
    · omega
    · exact less
    · omega
    · omega
    · intro odd
      omega

/-- What lies in the rounding interval of a finite double rounds to it. -/
theorem ofRatio_of_contains {x : Double} {numerator denominator : Nat}
    (finite : x.isFinite = true) (positive : 0 < denominator)
    (contains : (RoundingInterval.ofDouble x).Contains numerator denominator) :
    ofRatio x.negative numerator denominator = x := by
  have bound := x.significand_lt
  have highest := scale_le finite
  have largest : x.word ≤ infinityWord := by
    simp only [word, infinityWord, Nat.reduceShiftLeft]
    omega
  unfold ofRatio
  dsimp only
  rw [word_of_contains positive contains, Nat.min_eq_left largest, ofWord_word]

end Double

end ValueChannels
