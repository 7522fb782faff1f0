import ValueChannels.Number.Double

/-!
Unevaluated expressions: symbols, constants and calls. Expressions are plain trees that
never change once they are built.
-/

namespace ValueChannels

inductive Constant where
  | null
  | logical (value : Bool)
  | integer (value : Int32)
  | double (value : Double)
  | text (value : String)
  deriving DecidableEq, Inhabited

/-- An argument of a call, with or without a name in front of it. -/
structure Argument (α : Type) where
  name : Option String
  value : α
  deriving DecidableEq, Inhabited

inductive Expr where
  | symbol (name : String)
  | constant (value : Constant)
  | call (function : Expr) (arguments : List (Argument Expr))
  deriving Inhabited

/-- Equality of constants as values: doubles are compared as numbers. -/
def Constant.same : Constant → Constant → Bool
  | .double x, .double y => x.sameNumber y
  | x, y => x == y

mutual

/-- Equality of expressions as values: doubles in them are compared as numbers. -/
def Expr.same : Expr → Expr → Bool
  | .symbol x, .symbol y => x == y
  | .constant x, .constant y => x.same y
  | .call f xs, .call g ys => f.same g && Expr.sameArguments xs ys
  | _, _ => false

def Expr.sameArguments : List (Argument Expr) → List (Argument Expr) → Bool
  | [], [] => true
  | x :: xs, y :: ys => x.name == y.name && x.value.same y.value && Expr.sameArguments xs ys
  | _, _ => false

end

end ValueChannels
