import ValueChannels.Proofs.Number.Rounding

/-!
The shortest decimal of a double. Seventeen digits are always enough: the grid of seventeen digits
is finer than the rounding interval is wide, so one of the two neighbours of the value lies in the
interval. Main statement: `contains_shortest`.
-/

namespace ValueChannels

/-! ### Decimals in an interval -/

namespace Nat

theorem lt_pow_length_toDigits (n : Nat) : n < 10 ^ (Nat.toDigits 10 n).length :=
  (Nat.length_toDigits_le_iff (by decide) Nat.length_toDigits_pos).mp (Nat.le_refl _)

theorem pow_length_toDigits_le {n : Nat} (positive : 0 < n) :
    10 ^ ((Nat.toDigits 10 n).length - 1) ≤ n := by
  rcases Nat.lt_or_ge 1 (Nat.toDigits 10 n).length with several | single
  · refine Nat.not_lt.mp fun less => ?_
    have fewer := (Nat.length_toDigits_le_iff (by decide) (Nat.sub_pos_of_lt several)).mpr less
    omega
  · rw [Nat.sub_eq_zero_of_le single]
    exact positive

end Nat

namespace RoundingInterval

/-- Whether a decimal lies in the interval. -/
def ContainsDecimal (interval : RoundingInterval) (decimal : Decimal) : Prop :=
  interval.Contains (decimal.digits * 10 ^ decimal.exponent.toNat)
    (10 ^ (-decimal.exponent).toNat)

theorem containsDecimal_of_holds {interval : RoundingInterval} {exponent : Int} {digits : Nat}
    (holds : (interval.inUnitsOf exponent).holds digits = true) :
    interval.ContainsDecimal { digits, exponent } :=
  contains_inUnitsOf.mp (holds_eq_true.mp holds)

theorem ContainsDecimal.rewritten {interval : RoundingInterval} {digits places : Nat}
    {exponent : Int}
    (contains : interval.ContainsDecimal
      { digits := digits * 10 ^ places, exponent := exponent - places }) (places' : Nat) :
    interval.ContainsDecimal
      { digits := digits * 10 ^ places', exponent := exponent - places' } := by
  apply contains.congr (Nat.pow_pos (by decide)) (Nat.pow_pos (by decide))
  dsimp only
  simp only [Nat.mul_assoc, ← Nat.pow_add]
  congr 2
  omega

theorem holds_nearest {interval : RoundingInterval} {n : Nat}
    (nearest : interval.nearest? = some n) : interval.holds n = true := by
  unfold nearest? at nearest
  dsimp only at nearest
  split at nearest
  · rename_i under above
    split at nearest
    · cases nearest
      exact under
    · cases nearest
      exact above
  · cases nearest
    assumption
  · cases nearest
    assumption
  · cases nearest

theorem isSome_nearest {interval : RoundingInterval} (positive : 0 < interval.denominator)
    (under : interval.low ≤ interval.value) (above : interval.value < interval.high)
    (wide : interval.denominator < interval.high - interval.low) :
    interval.nearest?.isSome = true := by
  have parts := Nat.div_add_mod interval.value interval.denominator
  have small := Nat.mod_lt interval.value positive
  have inside : interval.holds (interval.value / interval.denominator) = true ∨
      interval.holds (interval.value / interval.denominator + 1) = true := by
    rw [holds_eq_true, holds_eq_true]
    simp only [Contains, Nat.mul_one, Nat.add_mul, Nat.one_mul]
    rw [Nat.mul_comm interval.denominator] at parts
    cases interval.closed with
    | true =>
        simp only [if_true]
        omega
    | false =>
        simp only [Bool.false_eq_true, if_false]
        omega
  unfold nearest?
  dsimp only
  rcases inside with found | found
  · rw [found]
    split <;> simp_all
  · rw [found]
    split <;> simp_all

theorem le_pointPosition {interval : RoundingInterval} (positive : 0 < interval.value) :
    interval.denominator * 10 ^ (interval.pointPosition - 1).toNat ≤
      interval.value * 10 ^ (-(interval.pointPosition - 1)).toNat := by
  unfold pointPosition
  dsimp only
  split
  · rename_i above
    rw [Int.add_sub_cancel]
    exact above
  · -- The value has at least, and the denominator at most, as many digits as it is written with.
    have most := Nat.lt_pow_length_toDigits interval.denominator
    have least := Nat.pow_length_toDigits_le positive
    have some := Nat.length_toDigits_pos (b := 10) (n := interval.value)
    generalize (Nat.toDigits 10 interval.value).length = count at *
    generalize (Nat.toDigits 10 interval.denominator).length = count' at *
    have exponents : count' + ((count : Int) - count' - 1).toNat =
        count - 1 + (-((count : Int) - count' - 1)).toNat := by omega
    calc interval.denominator * 10 ^ ((count : Int) - count' - 1).toNat
        ≤ 10 ^ count' * 10 ^ ((count : Int) - count' - 1).toNat :=
          Nat.mul_le_mul_right _ (Nat.le_of_lt most)
      _ = 10 ^ (count - 1) * 10 ^ (-((count : Int) - count' - 1)).toNat := by
          rw [← Nat.pow_add, exponents, Nat.pow_add]
      _ ≤ interval.value * 10 ^ (-((count : Int) - count' - 1)).toNat :=
          Nat.mul_le_mul_right _ least

theorem le_inUnitsOf {interval : RoundingInterval} (positive : 0 < interval.value)
    (places : Nat) :
    (interval.inUnitsOf (interval.pointPosition - (places + 1 : Nat))).denominator * 10 ^ places ≤
      (interval.inUnitsOf (interval.pointPosition - (places + 1 : Nat))).value := by
  have least := le_pointPosition positive
  generalize interval.pointPosition = position at *
  simp only [inUnitsOf, Nat.pow_eq]
  have exponents : (position - (places + 1 : Nat)).toNat + places + (-(position - 1)).toNat =
      (position - 1).toNat + (-(position - (places + 1 : Nat))).toNat := by omega
  apply Nat.le_of_mul_le_mul_right _ (Nat.pow_pos (n := (-(position - 1)).toNat) (show 0 < 10 by decide))
  calc interval.denominator * 10 ^ (position - (places + 1 : Nat)).toNat * 10 ^ places *
        10 ^ (-(position - 1)).toNat
      = interval.denominator * 10 ^ (position - 1).toNat *
          10 ^ (-(position - (places + 1 : Nat))).toNat := by
        simp only [Nat.mul_assoc, ← Nat.pow_add]
        rw [← exponents, Nat.add_assoc]
    _ ≤ interval.value * 10 ^ (-(position - 1)).toNat *
          10 ^ (-(position - (places + 1 : Nat))).toNat := Nat.mul_le_mul_right _ least
    _ = interval.value * 10 ^ (-(position - (places + 1 : Nat))).toNat *
          10 ^ (-(position - 1)).toNat := Nat.mul_right_comm _ _ _

end RoundingInterval

namespace Double

open RoundingInterval

theorem significand_pos {x : Double} (nonzero : x.magnitude ≠ 0) : 0 < x.significand := by
  refine Nat.pos_of_ne_zero fun zero => nonzero ?_
  rw [magnitude, zero, Nat.zero_shiftLeft]

/-- Seventeen digits are enough for every double. -/
theorem isSome_seventeen {x : Double} (nonzero : x.magnitude ≠ 0) :
    ((ofDouble x).inUnitsOf ((ofDouble x).pointPosition - (16 + 1 : Nat))).nearest?.isSome =
      true := by
  have some := significand_pos nonzero
  have bound := x.significand_lt
  have quarter : 0 < 1 <<< x.scale := one_shiftLeft_pos _
  have positive : 0 < (ofDouble x).value := by
    show 0 < 4 * x.significand * (1 <<< x.scale)
    exact Nat.mul_pos (by omega) quarter
  have fine := le_inUnitsOf positive 16
  generalize (ofDouble x).pointPosition - (16 + 1 : Nat) = exponent at *
  -- The ends of the interval and its value, in quarters of the last place.
  let unit := 1 <<< x.scale * 10 ^ (-exponent).toNat
  have unit_pos : 0 < unit := Nat.mul_pos quarter (Nat.pow_pos (by decide))
  let below := if x.significand = 1 <<< 52 ∧ 1 < x.scale then 1 else 2
  have shape : below = 1 ∧ x.significand = 2 ^ 52 ∨ below = 2 := by
    by_cases power : x.significand = 1 <<< 52 ∧ 1 < x.scale
    · exact Or.inl ⟨if_pos power, power.1⟩
    · exact Or.inr (if_neg power)
  have low : ((ofDouble x).inUnitsOf exponent).low = (4 * x.significand - below) * unit :=
    Nat.mul_assoc _ _ _
  have value : ((ofDouble x).inUnitsOf exponent).value = 4 * x.significand * unit :=
    Nat.mul_assoc _ _ _
  have high : ((ofDouble x).inUnitsOf exponent).high = (4 * x.significand + 2) * unit :=
    Nat.mul_assoc _ _ _
  have denominator : 0 < ((ofDouble x).inUnitsOf exponent).denominator :=
    Nat.mul_pos (Nat.mul_pos (by decide) unitsPerOne_pos) (Nat.pow_pos (by decide))
  rw [value] at fine
  rw [Nat.sub_mul] at low
  rw [Nat.add_mul] at high
  have size : x.significand * unit ≤ (2 ^ 53 - 1) * unit := Nat.mul_le_mul_right _ (by omega)
  have least : 1 * unit ≤ x.significand * unit := Nat.mul_le_mul_right _ some
  rw [Nat.mul_assoc] at fine low high value
  apply isSome_nearest denominator
  · omega
  · omega
  · rcases shape with ⟨one, power⟩ | two
    · rw [one] at low
      rw [power] at low high fine
      omega
    · rw [two] at low
      omega

/-- The shortest decimal of a double other than zero lies in its rounding interval. -/
theorem contains_shortest {x : Double} (nonzero : x.magnitude ≠ 0) :
    (ofDouble x).ContainsDecimal x.shortest := by
  have enough := isSome_seventeen nonzero
  unfold shortest
  dsimp only
  generalize (ofDouble x).pointPosition = position at *
  let attempt (count : Nat) : Option Decimal :=
    (((ofDouble x).inUnitsOf (position - (count + 1 : Nat))).nearest?).map fun digits =>
      { digits, exponent := position - (count + 1 : Nat) }
  have found : ((List.range greatestDigitCount).findSome? attempt).isSome = true := by
    rw [List.findSome?_isSome_iff]
    refine ⟨16, List.mem_range.mpr (by decide), ?_⟩
    rw [Option.isSome_map]
    exact enough
  obtain ⟨decimal, first⟩ := Option.isSome_iff_exists.mp found
  obtain ⟨count, member, tried⟩ := List.exists_of_findSome?_eq_some first
  obtain ⟨digits, nearest, same⟩ := Option.map_eq_some_iff.mp tried
  show (ofDouble x).ContainsDecimal (((List.range greatestDigitCount).findSome? attempt).getD _)
  rw [first, Option.getD_some, ← same]
  exact containsDecimal_of_holds (holds_nearest nearest)

end Double

end ValueChannels
