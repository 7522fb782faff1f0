import ValueChannels.Expr.Basic

/-!
Equality of numbers and of expressions as values. No NaN is equal to anything, and both zeros are
equal; apart from that, numbers are equal when they are the same double. Main statements: the
equality of expressions is symmetric and transitive, and reflexive where there is no NaN.
-/

namespace ValueChannels

namespace Double

variable {x y z : Double}

def isZero (x : Double) : Bool :=
  x.isFinite && x.magnitude == 0

theorem sameNumber_iff : x.sameNumber y = true ↔
    (x.isNaN = false ∧ y.isNaN = false) ∧ (x = y ∨ x.isZero = true ∧ y.isZero = true) := by
  simp only [sameNumber, isZero, Bool.and_eq_true, Bool.or_eq_true, Bool.not_eq_true', beq_iff_eq]
  constructor
  · rintro ⟨numbers, same | ⟨⟨⟨finite, finite'⟩, zero⟩, zero'⟩⟩
    · exact ⟨numbers, Or.inl same⟩
    · exact ⟨numbers, Or.inr ⟨⟨finite, zero⟩, finite', zero'⟩⟩
  · rintro ⟨numbers, same | ⟨⟨finite, zero⟩, finite', zero'⟩⟩
    · exact ⟨numbers, Or.inl same⟩
    · exact ⟨numbers, Or.inr ⟨⟨⟨finite, finite'⟩, zero⟩, zero'⟩⟩

theorem sameNumber_self (number : x.isNaN = false) : x.sameNumber x = true :=
  sameNumber_iff.mpr ⟨⟨number, number⟩, Or.inl rfl⟩

theorem sameNumber_symm (same : x.sameNumber y = true) : y.sameNumber x = true := by
  obtain ⟨numbers, equal⟩ := sameNumber_iff.mp same
  exact sameNumber_iff.mpr ⟨numbers.symm, equal.imp Eq.symm And.symm⟩

theorem sameNumber_trans (first : x.sameNumber y = true) (second : y.sameNumber z = true) :
    x.sameNumber z = true := by
  obtain ⟨numbers, equal⟩ := sameNumber_iff.mp first
  obtain ⟨numbers', equal'⟩ := sameNumber_iff.mp second
  refine sameNumber_iff.mpr ⟨⟨numbers.1, numbers'.2⟩, ?_⟩
  rcases equal with same | zeros
  · rw [same]
    exact equal'
  · rcases equal' with same | zeros'
    · rw [← same]
      exact Or.inr zeros
    · exact Or.inr ⟨zeros.1, zeros'.2⟩

end Double

namespace Constant

variable {x y z : Constant}

def hasNaN : Constant → Bool
  | .double value => value.isNaN
  | _ => false

theorem same_iff : x.same y = true ↔ (x = y ∧ ∀ value, x ≠ .double value) ∨
    ∃ value value', x = .double value ∧ y = .double value' ∧ value.sameNumber value' = true := by
  cases x with
  | double value =>
      cases y with
      | double value' => simp [same]
      | _ => simp [same]
  | _ => simp [same]

theorem same_self (number : x.hasNaN = false) : x.same x = true := by
  cases x with
  | double value => exact Double.sameNumber_self number
  | _ => exact beq_self_eq_true _

theorem same_symm (equal : x.same y = true) : y.same x = true := by
  rcases same_iff.mp equal with ⟨rfl, _⟩ | ⟨value, value', rfl, rfl, numbers⟩
  · exact equal
  · exact Double.sameNumber_symm numbers

theorem same_trans (first : x.same y = true) (second : y.same z = true) : x.same z = true := by
  rcases same_iff.mp first with ⟨rfl, _⟩ | ⟨value, value', rfl, rfl, numbers⟩
  · exact second
  · rcases same_iff.mp second with ⟨rfl, other⟩ | ⟨_, value'', same, rfl, numbers'⟩
    · exact absurd rfl (other value')
    · cases same
      exact Double.sameNumber_trans numbers numbers'

end Constant

namespace Expr

mutual

/-- Whether a NaN stands anywhere in the expression. -/
def hasNaN : Expr → Bool
  | .symbol _ => false
  | .constant value => value.hasNaN
  | .call function arguments => function.hasNaN || argumentsHaveNaN arguments

def argumentsHaveNaN : List (Argument Expr) → Bool
  | [] => false
  | argument :: rest => argument.value.hasNaN || argumentsHaveNaN rest

end

mutual

theorem same_self (expr : Expr) (numbers : expr.hasNaN = false) : expr.same expr = true := by
  cases expr with
  | symbol name => exact beq_self_eq_true name
  | constant value => exact Constant.same_self numbers
  | call function arguments =>
      obtain ⟨first, rest⟩ := Bool.or_eq_false_iff.mp numbers
      rw [same, same_self function first, sameArguments_self arguments rest]
      rfl

theorem sameArguments_self (arguments : List (Argument Expr))
    (numbers : argumentsHaveNaN arguments = false) : sameArguments arguments arguments = true := by
  cases arguments with
  | nil => rfl
  | cons argument rest =>
      obtain ⟨first, later⟩ := Bool.or_eq_false_iff.mp numbers
      rw [sameArguments, beq_self_eq_true, same_self argument.value first,
        sameArguments_self rest later]
      rfl

end

mutual

theorem same_symm (x y : Expr) (equal : x.same y = true) : y.same x = true := by
  cases x with
  | symbol name =>
      cases y with
      | symbol other => exact beq_iff_eq.mpr (beq_iff_eq.mp equal).symm
      | _ => cases equal
  | constant value =>
      cases y with
      | constant other => exact Constant.same_symm equal
      | _ => cases equal
  | call function arguments =>
      cases y with
      | call function' arguments' =>
          rw [same, Bool.and_eq_true] at equal ⊢
          exact ⟨same_symm function function' equal.1,
            sameArguments_symm arguments arguments' equal.2⟩
      | _ => cases equal

theorem sameArguments_symm (xs ys : List (Argument Expr)) (equal : sameArguments xs ys = true) :
    sameArguments ys xs = true := by
  cases xs with
  | nil =>
      cases ys with
      | nil => rfl
      | cons _ _ => cases equal
  | cons x xs =>
      cases ys with
      | nil => cases equal
      | cons y ys =>
          rw [sameArguments, Bool.and_eq_true, Bool.and_eq_true, beq_iff_eq] at equal ⊢
          exact ⟨⟨equal.1.1.symm, same_symm x.value y.value equal.1.2⟩,
            sameArguments_symm xs ys equal.2⟩

end

mutual

theorem same_trans (x y z : Expr) (first : x.same y = true) (second : y.same z = true) :
    x.same z = true := by
  cases x with
  | symbol name =>
      cases y with
      | symbol other =>
          rw [beq_iff_eq.mp first]
          exact second
      | _ => cases first
  | constant value =>
      cases y with
      | constant other =>
          cases z with
          | constant last => exact Constant.same_trans first second
          | _ => cases second
      | _ => cases first
  | call function arguments =>
      cases y with
      | call function' arguments' =>
          cases z with
          | call function'' arguments'' =>
              rw [same, Bool.and_eq_true] at first second ⊢
              exact ⟨same_trans function function' function'' first.1 second.1,
                sameArguments_trans arguments arguments' arguments'' first.2 second.2⟩
          | _ => cases second
      | _ => cases first

theorem sameArguments_trans (xs ys zs : List (Argument Expr))
    (first : sameArguments xs ys = true) (second : sameArguments ys zs = true) :
    sameArguments xs zs = true := by
  cases xs with
  | nil =>
      cases ys with
      | nil => exact second
      | cons _ _ => cases first
  | cons x xs =>
      cases ys with
      | nil => cases first
      | cons y ys =>
          cases zs with
          | nil => cases second
          | cons z zs =>
              rw [sameArguments, Bool.and_eq_true, Bool.and_eq_true, beq_iff_eq] at first second ⊢
              exact ⟨⟨first.1.1.trans second.1.1,
                same_trans x.value y.value z.value first.1.2 second.1.2⟩,
                sameArguments_trans xs ys zs first.2 second.2⟩

end

end Expr

end ValueChannels
