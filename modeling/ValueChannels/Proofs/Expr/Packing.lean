import ValueChannels.Expr.Wire
import ValueChannels.Proofs.Pack.Decoding

/-!
The packed form of expressions is decoded to the expression it was made from. Main statement:
`decodes_expr`.
-/

namespace ValueChannels

open Pack

theorem Constant.ofItem?_toItem (value : Constant) : Constant.ofItem? value.toItem = some value := by
  cases value with
  | null =>
      have index : (Item.ofString "Null").nameIndex? Constant.tags = some (some 0) := by
        decide +kernel
      simp only [ofItem?, toItem, Item.tag?_ofString index]
  | logical value =>
      have index : (Item.ofString "Logical").nameIndex? Constant.tags = some (some 1) := by
        decide +kernel
      simp only [ofItem?, toItem, Item.tag?_tagged _ index, Item.toBool?, Option.map_some]
  | integer value =>
      have index : (Item.ofString "Integer").nameIndex? Constant.tags = some (some 2) := by
        decide +kernel
      simp only [ofItem?, toItem, Item.tag?_tagged _ index, Item.toInt32?_ofInt, Option.map_some]
  | double value =>
      have index : (Item.ofString "Double").nameIndex? Constant.tags = some (some 3) := by
        decide +kernel
      simp only [ofItem?, toItem, Item.tag?_tagged _ index, Item.toDouble?, Option.map_some]
  | text content =>
      have index : (Item.ofString "Str").nameIndex? Constant.tags = some (some 4) := by
        decide +kernel
      simp only [ofItem?, toItem, Item.tag?_tagged _ index, Item.toText?_ofString, Option.map_some]

@[simp] theorem Constant.levels_toItem (value : Constant) : value.toItem.levels = 0 := by
  cases value with
  | integer value =>
      rw [toItem, Item.levels_tagged, Item.levels_ofInt]
  | _ => simp [toItem, Item.ofString, Item.levels]

namespace Expr

def argumentItem (argument : Argument Expr) : Item :=
  .array [match argument.name with | some name => .ofString name | none => .nil,
    argument.value.toItem]

theorem argumentItems_eq (arguments : List (Argument Expr)) :
    argumentItems arguments = arguments.map argumentItem := by
  induction arguments with
  | nil => rw [argumentItems, List.map_nil]
  | cons argument rest ih =>
      rw [argumentItems, List.map_cons, ih]
      rfl

theorem decodes_argument {limit : Nat} {decoder : Decoder Expr} {name : Option String}
    {expr : Expr} (value : Decodes limit decoder expr.toItem expr) :
    Decodes limit (argumentDecoder decoder) (argumentItem ⟨name, expr⟩) ⟨name, expr⟩ := by
  apply Decodes.record rfl
  intro depth bound
  have inner := value depth (by omega)
  have field : Decoder.optionalField (Decoder.leaf Item.toText?) depth
      (some (match name with | some name => .ofString name | none => .nil)) = some name := by
    cases name with
    | none => rfl
    | some name =>
        show (Item.toText? (.ofString name)).map some = _
        rw [Item.toText?_ofString, Option.map_some]
  have flat : (match name with | some name => Item.ofString name | none => .nil).levels = 0 := by
    cases name <;> rfl
  simp only [List.map_cons, List.map_nil, field, inner, Item.levelsAll, flat, Nat.max_zero,
    Nat.zero_max]
  by_cases enough : expr.toItem.levels ≤ depth <;> simp [enough]

mutual

theorem decodes_within (expr : Expr) (height : Nat) :
    Decodes height (decoderWithin height) expr.toItem expr := by
  intro depth bound
  cases height with
  | zero => cases bound
  | succ height =>
      cases expr with
      | symbol name =>
          have index : (Item.ofString "Symbol").nameIndex? tags = some (some 0) := by
            decide +kernel
          simp only [decoderWithin, toItem, Item.tag?_tagged _ index, Item.toText?_ofString,
            Option.map_some, Item.levels_tagged]
          rfl
      | constant value =>
          have index : (Item.ofString "Constant").nameIndex? tags = some (some 1) := by
            decide +kernel
          simp only [decoderWithin, toItem, Item.tag?_tagged _ index, Constant.ofItem?_toItem,
            Option.map_some, Item.levels_tagged, Constant.levels_toItem, Nat.zero_le, if_true]
      | call function arguments =>
          have index : (Item.ofString "Call").nameIndex? tags = some (some 2) := by
            decide +kernel
          simp only [decoderWithin, toItem, Item.tag?_tagged _ index, Item.levels_tagged]
          refine Decodes.record rfl ?_ depth bound
          intro depth bound
          have first := decodes_within function height depth (by omega)
          have others := decodes_arguments arguments height depth (by omega)
          simp only [List.map_cons, List.map_nil, first, others, Item.levelsAll, Nat.max_le]
          by_cases here : function.toItem.levels ≤ depth <;>
            by_cases there : (Item.array (argumentItems arguments)).levels ≤ depth <;>
            simp [here, there]

theorem decodes_arguments (arguments : List (Argument Expr)) (height : Nat) :
    Decodes height ((argumentDecoder (decoderWithin height)).list)
      (.array (argumentItems arguments)) arguments := by
  rw [argumentItems_eq]
  apply Decodes.list
  intro argument member
  exact decodes_argument (decodes_within argument.value height)

end

/-- The packed form of an expression is decoded to the expression, where the levels are enough. -/
theorem decodes_expr (limit : Nat) (expr : Expr) : Decodes limit decoder expr.toItem expr := by
  intro depth _
  exact decodes_within expr (depth + 1) depth (Nat.lt_succ_self depth)

end Expr

end ValueChannels
