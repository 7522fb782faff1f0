import Mathlib.Algebra.Order.Field.Rat
import Mathlib.Tactic.Ring
import ValueChannels.Proofs.Number.Rounding

/-!
The rational number that a double stands for, read off its three fields. Infinities and NaNs stand
for none. Main statements: a double is taken for a whole number if and only if it stands for it,
and every whole number of less than 53 binary digits has a double that stands for it.
-/

namespace ValueChannels

namespace Double

/-- The number that a double stands for: the fraction counts in units of `2 ^ (-1074)` when the
exponent field is zero, and extends a hidden bit that the exponent field places otherwise. -/
def value? (x : Double) : Option ℚ :=
  let sign : ℚ := if x.negative then -1 else 1
  if x.exponentField = 2047 then none
  else if x.exponentField = 0 then some (sign * (x.fraction * 2 ^ (-1074 : ℤ)))
  else some (sign * ((2 ^ 52 + x.fraction) * 2 ^ ((x.exponentField : ℤ) - 1075)))

/-- The magnitude with the sign of the double, in the units that all finite doubles share. -/
def signedMagnitude (x : Double) : Int :=
  if x.negative then -(x.magnitude : Int) else x.magnitude

theorem value?_eq_none {x : Double} : x.value? = none ↔ x.isFinite = false := by
  unfold value? isFinite
  by_cases top : x.exponentField = 2047
  · simp [top]
  · by_cases bottom : x.exponentField = 0
    · simp [bottom]
    · simp [top, bottom]

theorem shiftLeft_cast (n count : Nat) : ((n <<< count : Nat) : ℚ) = n * 2 ^ count := by
  rw [Nat.shiftLeft_eq, Nat.cast_mul, Nat.cast_pow, Nat.cast_ofNat]

theorem magnitude_div (x : Double) (count : Nat) :
    (x.magnitude : ℚ) / (1 <<< count : Nat) = x.significand * 2 ^ ((x.scale : ℤ) - count) := by
  rw [magnitude, shiftLeft_cast, shiftLeft_cast, Nat.cast_one, one_mul, mul_div_assoc,
    zpow_sub₀ two_ne_zero, zpow_natCast, zpow_natCast]

theorem value?_of_isFinite {x : Double} (finite : x.isFinite = true) :
    x.value? = some ((x.signedMagnitude : ℚ) / unitsPerOne) := by
  have ordinary : x.exponentField ≠ 2047 := by simpa [isFinite] using finite
  have sized : (x.magnitude : ℚ) / unitsPerOne = x.significand * 2 ^ ((x.scale : ℤ) - 1075) :=
    magnitude_div x 1075
  have signed : (x.signedMagnitude : ℚ) / unitsPerOne =
      (if x.negative then -1 else 1) * (x.significand * 2 ^ ((x.scale : ℤ) - 1075)) := by
    rw [← sized, signedMagnitude]
    split
    · push_cast
      ring
    · push_cast
      ring
  rw [signed]
  unfold value?
  dsimp only
  rw [if_neg ordinary]
  by_cases bottom : x.exponentField = 0
  · have lowest : x.scale = 1 := by rw [scale, bottom]; rfl
    rw [if_pos bottom, lowest, significand, if_pos bottom]
    norm_num
  · have placed : x.scale = x.exponentField := by rw [scale]; omega
    rw [if_neg bottom, placed, significand, if_neg bottom, Nat.one_shiftLeft, Nat.cast_add,
      Nat.cast_pow, Nat.cast_ofNat, add_comm]

/-- A double is taken for a whole number exactly if it stands for it. -/
theorem whole?_eq_some {x : Double} {n : Int} : x.whole? = some n ↔ x.value? = some (n : ℚ) := by
  by_cases finite : x.isFinite = true
  · have units : unitsPerOne ≠ 0 := Nat.ne_of_gt unitsPerOne_pos
    have stands : x.value? = some (n : ℚ) ↔ x.signedMagnitude = n * unitsPerOne := by
      rw [value?_of_isFinite finite, Option.some.injEq, div_eq_iff (Nat.cast_ne_zero.mpr units)]
      exact_mod_cast Iff.rfl
    rw [stands]
    unfold whole? signedMagnitude
    rw [finite, Bool.true_and]
    by_cases divides : unitsPerOne ∣ x.magnitude
    · obtain ⟨size, parts⟩ := divides
      rw [parts, if_pos (beq_iff_eq.mpr (Nat.mul_mod_right _ _)),
        Nat.mul_div_cancel_left _ unitsPerOne_pos]
      have scaled : (if x.negative then -((unitsPerOne * size : Nat) : Int)
          else (unitsPerOne * size : Nat)) =
          (if x.negative then -(size : Int) else size) * unitsPerOne := by
        rw [Nat.cast_mul]
        split <;> ring
      rw [scaled, Option.some.injEq, mul_left_inj' (Nat.cast_ne_zero.mpr units)]
    · rw [if_neg (fun whole => divides (Nat.dvd_of_mod_eq_zero (beq_iff_eq.mp whole)))]
      refine iff_of_false (Option.some_ne_none _).symm fun same => divides ?_
      refine ⟨n.natAbs, ?_⟩
      have size := congrArg Int.natAbs same
      rw [Int.natAbs_mul, Int.natAbs_natCast, Nat.mul_comm] at size
      rw [← size]
      split <;> simp
  · have valueless : x.value? = none := value?_eq_none.mpr (by simpa using finite)
    unfold whole?
    simp [valueless, finite]

theorem fields_ofWord {negative : Bool} {scale whole : Nat} (some : 0 < scale)
    (low : 2 ^ 52 ≤ whole) (high : whole < 2 ^ 53) (finite : scale ≤ 2046) :
    (ofWord negative ((scale - 1) * 2 ^ 52 + whole)).negative = negative ∧
      (ofWord negative ((scale - 1) * 2 ^ 52 + whole)).exponentField = scale ∧
      (ofWord negative ((scale - 1) * 2 ^ 52 + whole)).fraction = whole - 2 ^ 52 := by
  have bits : (ofWord negative ((scale - 1) * 2 ^ 52 + whole)).bits.toNat =
      (if negative then 2 ^ 63 else 0) + ((scale - 1) * 2 ^ 52 + whole) := by
    rw [ofWord, UInt64.toNat_ofNat', Nat.one_shiftLeft]
    apply Nat.mod_eq_of_lt
    split <;> omega
  simp only [Double.negative, exponentField, fraction, bits, Nat.reduceShiftLeft]
  cases negative with
  | true => simp only [if_true, decide_eq_true_eq]; omega
  | false =>
      simp only [Bool.false_eq_true, if_false, decide_eq_false_iff_not]
      omega

theorem digits_bounds {size : Nat} (nonzero : size ≠ 0) (small : size < 2 ^ 53) :
    size.log2 ≤ 52 ∧ 2 ^ 52 ≤ size * 2 ^ (52 - size.log2) ∧
      size * 2 ^ (52 - size.log2) < 2 ^ 53 := by
  have few : size.log2 ≤ 52 := Nat.le_of_lt_succ ((Nat.log2_lt nonzero).mpr small)
  have lower : (2 : Nat) ^ 52 = 2 ^ size.log2 * 2 ^ (52 - size.log2) := by
    rw [← Nat.pow_add, Nat.add_sub_cancel' few]
  have upper : (2 : Nat) ^ 53 = 2 ^ (size.log2 + 1) * 2 ^ (52 - size.log2) := by
    rw [← Nat.pow_add]
    congr 1
    omega
  refine ⟨few, ?_, ?_⟩
  · rw [lower]
    exact Nat.mul_le_mul_right _ (Nat.log2_self_le nonzero)
  · rw [upper]
    exact Nat.mul_lt_mul_of_pos_right Nat.lt_log2_self (Nat.two_pow_pos _)

theorem unitsPerOne_eq {count : Nat} (few : count ≤ 52) :
    unitsPerOne = 1 <<< (1023 + count) * 2 ^ (52 - count) := by
  have split : 1075 = (1023 + count) + (52 - count) := by omega
  rw [unitsPerOne, split, Nat.one_shiftLeft, Nat.pow_add, Nat.one_shiftLeft]

theorem ofInt_eq_ofWord {n : Int} (nonzero : n ≠ 0) (small : n.natAbs < 2 ^ 53) :
    ofInt n = ofWord (decide (n < 0))
      ((1023 + n.natAbs.log2 - 1) * 2 ^ 52 + n.natAbs * 2 ^ (52 - n.natAbs.log2)) := by
  obtain ⟨few, low, high⟩ := digits_bounds (Int.natAbs_ne_zero.mpr nonzero) small
  have units : n.natAbs * unitsPerOne =
      1 <<< (1023 + n.natAbs.log2) * (n.natAbs * 2 ^ (52 - n.natAbs.log2)) := by
    rw [unitsPerOne_eq few, Nat.mul_left_comm]
  have place : 0 < 1 <<< (1023 + n.natAbs.log2) := one_shiftLeft_pos _
  have finite : (1023 + n.natAbs.log2 - 1) * 2 ^ 52 + n.natAbs * 2 ^ (52 - n.natAbs.log2) ≤
      infinityWord := by
    simp only [infinityWord, Nat.reduceShiftLeft]
    omega
  unfold ofInt ofRatio
  dsimp only
  rw [@word_of_scale _ 1 (1023 + n.natAbs.log2) (n.natAbs * 2 ^ (52 - n.natAbs.log2))
    Nat.zero_lt_one (by omega), Nat.min_eq_left finite]
  · rw [units]
    exact Or.inr (Nat.mul_le_mul_left _ low)
  · rw [units]
    exact Nat.mul_lt_mul_of_pos_left high place
  · rw [units]
    exact Nat.le_add_right _ _
  · rw [units]
    exact Nat.le_add_right _ _
  · intro _
    rw [units]
    exact ⟨Nat.lt_add_of_pos_right place, Nat.lt_add_of_pos_right place⟩

theorem whole?_ofInt {n : Int} (small : n.natAbs < 2 ^ 53) : (ofInt n).whole? = some n := by
  by_cases nonzero : n = 0
  · rw [nonzero]
    decide
  · obtain ⟨few, low, high⟩ := digits_bounds (Int.natAbs_ne_zero.mpr nonzero) small
    obtain ⟨sign, field, digits⟩ := @fields_ofWord (decide (n < 0)) (1023 + n.natAbs.log2)
      (n.natAbs * 2 ^ (52 - n.natAbs.log2)) (by omega) low high (by omega)
    rw [← ofInt_eq_ofWord nonzero small] at sign field digits
    have normal : ¬1023 + n.natAbs.log2 = 0 := by omega
    have finite : (ofInt n).isFinite = true := by
      rw [isFinite, field, bne_iff_ne]
      omega
    have significand : (ofInt n).significand = n.natAbs * 2 ^ (52 - n.natAbs.log2) := by
      rw [Double.significand, field, if_neg normal, digits, Nat.one_shiftLeft]
      exact Nat.sub_add_cancel low
    have placed : (ofInt n).scale = 1023 + n.natAbs.log2 := by
      rw [scale, field]
      omega
    have size : (ofInt n).magnitude = n.natAbs * unitsPerOne := by
      rw [magnitude, significand, placed, unitsPerOne_eq few, Nat.shiftLeft_eq, Nat.one_shiftLeft,
        Nat.mul_assoc, Nat.mul_comm (2 ^ (52 - _))]
    unfold whole?
    rw [finite, size, Bool.true_and, if_pos (beq_iff_eq.mpr (Nat.mul_mod_left _ _)),
      Nat.mul_div_cancel _ unitsPerOne_pos, sign]
    dsimp only
    by_cases below : n < 0
    · rw [decide_eq_true below, if_pos rfl, Option.some.injEq]
      omega
    · rw [decide_eq_false below, if_neg Bool.false_ne_true, Option.some.injEq]
      omega

/-- Every whole number of at most 53 binary digits is what some double stands for. -/
theorem value?_ofInt {n : Int} (small : n.natAbs < 2 ^ 53) : (ofInt n).value? = some (n : ℚ) :=
  whole?_eq_some.mp (whole?_ofInt small)

end Double

end ValueChannels
