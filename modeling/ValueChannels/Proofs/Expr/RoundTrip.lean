import ValueChannels.Proofs.Expr.Rereading
import ValueChannels.Proofs.Number.Numerals

/-!
Writing and reading expressions undo each other. Every constant is read back from its numeral as
itself, a NaN as the NaN without payload, and so every expression from its text. Main statement:
`reads_back`.
-/

namespace ValueChannels

/-! ### Expressions up to NaNs -/

/-- The double itself, or one fixed NaN for any NaN. -/
def Double.withPlainNaN (x : Double) : Double :=
  if x.isNaN then Double.notANumber false else x

def Constant.withPlainNaN : Constant → Constant
  | .double x => .double x.withPlainNaN
  | value => value

namespace Expr

mutual

/-- The same tree with the same names, texts and numbers, where every NaN is the one fixed NaN. -/
def withPlainNaNs : Expr → Expr
  | .symbol name => .symbol name
  | .constant value => .constant value.withPlainNaN
  | .call function arguments => .call function.withPlainNaNs (argumentsWithPlainNaNs arguments)

def argumentsWithPlainNaNs : List (Argument Expr) → List (Argument Expr)
  | [] => []
  | argument :: rest =>
      ⟨argument.name, argument.value.withPlainNaNs⟩ :: argumentsWithPlainNaNs rest

end

end Expr

/-! ### Atoms that are read back -/

/-- The letters of the words for NULL and the logical constants that no numeral holds, and the
letter at the end of a whole number. -/
def wordLetters : List Char := ['L', 'S', 'U']

theorem Decimal.not_mem_signedDigits {n : Int} {c : Char} (letter : c ∈ wordLetters) :
    c ∉ Decimal.signedDigits n := by
  have apart : wordLetters.all (fun c => decide ¬(c = '-' ∨ c.isDigit = true)) = true := by decide
  have other := of_decide_eq_true (List.all_eq_true.mp apart c letter)
  exact fun member => other (Decimal.mem_signedDigits member)

theorem Double.not_mem_written {x : Double} {c : Char} (letter : c ∈ wordLetters) :
    c ∉ x.written .literal := by
  have apart : wordLetters.all (fun c => decide ¬(c.isDigit = true ∨ c ∈ numeralMarks)) = true := by
    decide
  have other := of_decide_eq_true (List.all_eq_true.mp apart c letter)
  exact fun member => other (Double.mem_written member)

namespace Expr

theorem ofAtom_numeral {chars : List Char} (plain : 'S' ∉ chars ∧ 'U' ∉ chars) :
    ofAtom (String.ofList chars) =
      match (if chars.getLast? = some 'L' then Numeral.int32? chars.dropLast else none),
        Numeral.double? chars with
      | some n, _ => .constant (.integer n)
      | none, some x => .constant (.double x)
      | none, none => .symbol (String.ofList chars) := by
  have other {word : String} (letter : Char) (inside : letter ∈ word.toList)
      (absent : letter ∉ chars) : String.ofList chars ≠ word := by
    intro same
    rw [← same, String.toList_ofList] at inside
    exact absent inside
  unfold ofAtom
  rw [String.toList_ofList, if_neg (other 'U' (by decide) plain.2),
    if_neg (other 'U' (by decide) plain.2)]
  exact if_neg (other 'S' (by decide) plain.1)

theorem int32?_signedDigits (n : Int32) :
    Numeral.int32? (Decimal.signedDigits n.toInt) = some n := by
  have low := n.le_toInt
  have high := n.toInt_lt
  rw [Numeral.int32?, Numeral.integer?_signedDigits]
  dsimp only
  rw [if_pos (by omega), Int32.ofInt_toInt]

theorem ofAtom_integer (n : Int32) :
    ofAtom (String.ofList (constantChars (.integer n))) = .constant (.integer n) := by
  have absent {c : Char} (letter : c ∈ wordLetters) (other : c ≠ 'L') :
      c ∉ Decimal.signedDigits n.toInt ++ ['L'] := by
    intro member
    rcases List.mem_append.mp member with digit | suffix
    · exact Decimal.not_mem_signedDigits letter digit
    · exact other (List.mem_singleton.mp suffix)
  rw [constantChars, ofAtom_numeral ⟨absent (by decide) (by decide), absent (by decide) (by decide)⟩,
    List.getLast?_concat, if_pos rfl, List.dropLast_concat, int32?_signedDigits]

theorem ofAtom_double {x y : Double} (read : Numeral.double? (x.written .literal) = some y) :
    ofAtom (String.ofList (constantChars (.double x))) = .constant (.double y) := by
  have last : (x.written .literal).getLast? ≠ some 'L' := by
    intro same
    exact Double.not_mem_written (by decide) (List.mem_of_getLast? same)
  rw [constantChars, ofAtom_numeral ⟨Double.not_mem_written (by decide),
    Double.not_mem_written (by decide)⟩, if_neg last, read]

theorem double?_withPlainNaN (x : Double) :
    Numeral.double? (x.written .literal) = some x.withPlainNaN := by
  unfold Double.withPlainNaN
  by_cases nan : x.isNaN = true
  · rw [if_pos nan]
    exact Numeral.double?_nan nan
  · rw [if_neg nan]
    exact Numeral.double?_written (Bool.eq_false_iff.mpr nan)

theorem written_withPlainNaN (x : Double) :
    x.withPlainNaN.written .literal = x.written .literal := by
  unfold Double.withPlainNaN
  by_cases nan : x.isNaN = true
  · rw [if_pos nan, Double.written, Double.written, if_pos nan]
    rfl
  · rw [if_neg nan]

/-- A constant is read back as itself, up to the payload of a NaN. -/
theorem rereadConstant_eq (value : Constant) :
    rereadConstant value = .constant value.withPlainNaN := by
  cases value with
  | null => rfl
  | logical value =>
      cases value with
      | true => rfl
      | false => rfl
  | integer n => exact ofAtom_integer n
  | double x => exact ofAtom_double (double?_withPlainNaN x)
  | text content => rfl

theorem constantChars_withPlainNaN (value : Constant) :
    constantChars value.withPlainNaN = constantChars value := by
  cases value with
  | double x => exact written_withPlainNaN x
  | _ => rfl

/-! ### Whole expressions -/

mutual

theorem reread_eq (expr : Expr) : expr.reread = expr.withPlainNaNs := by
  cases expr with
  | symbol name => rfl
  | constant value => exact rereadConstant_eq value
  | call function arguments =>
      rw [reread, withPlainNaNs, reread_eq function, rereadArguments_eq arguments]

theorem rereadArguments_eq (arguments : List (Argument Expr)) :
    rereadArguments arguments = argumentsWithPlainNaNs arguments := by
  cases arguments with
  | nil => rfl
  | cons argument rest =>
      rw [rereadArguments, argumentsWithPlainNaNs, reread_eq argument.value,
        rereadArguments_eq rest]

end

mutual

theorem chars_withPlainNaNs (expr : Expr) : expr.withPlainNaNs.chars = expr.chars := by
  cases expr with
  | symbol name => rfl
  | constant value =>
      rw [withPlainNaNs, chars_constant, chars_constant, constantChars_withPlainNaN]
  | call function arguments =>
      rw [withPlainNaNs, chars_call, chars_call, chars_withPlainNaNs function,
        argumentChars_withPlainNaNs arguments]

theorem argumentChars_withPlainNaNs (arguments : List (Argument Expr)) :
    argumentChars (argumentsWithPlainNaNs arguments) = argumentChars arguments := by
  cases arguments with
  | nil => rfl
  | cons argument rest =>
      rw [argumentsWithPlainNaNs, argumentChars_cons, argumentChars_cons,
        chars_withPlainNaNs argument.value, argumentChars_withPlainNaNs rest]

end

theorem deparse_withPlainNaNs (expr : Expr) : expr.withPlainNaNs.deparse = expr.deparse := by
  rw [deparse, chars_withPlainNaNs, deparse]

/-- The written form of every expression parses as that expression, up to NaNs. -/
theorem parse_written (expr : Expr) : parse expr.deparse = .ok expr.withPlainNaNs := by
  rw [parse_deparse, reread_eq]

/-- Parsing undoes writing; two expressions are written alike exactly when they differ in NaNs
only; and what has been read and written once stays as it is. -/
theorem reads_back :
    (∀ expr : Expr, parse expr.deparse = .ok expr.withPlainNaNs) ∧
      (∀ first second : Expr,
        first.deparse = second.deparse ↔ first.withPlainNaNs = second.withPlainNaNs) ∧
      ∀ text written, (parse text).map deparse = .ok written →
        (parse written).map deparse = .ok written := by
  refine ⟨parse_written, fun first second => ⟨fun same => ?_, fun same => ?_⟩, ?_⟩
  · have read := parse_written first
    rw [same, parse_written second] at read
    exact (Except.ok.inj read).symm
  · rw [← deparse_withPlainNaNs first, same, deparse_withPlainNaNs]
  · intro text written once
    cases read : parse text with
    | error err =>
        rw [read] at once
        cases once
    | ok expr =>
        rw [read] at once
        cases once
        rw [parse_written, Except.map, deparse_withPlainNaNs]

theorem reads_back_spaced :
    (parse "( `f`\t:`a b` TRUE)").map deparse = .ok "(f :`a b` TRUE)" ∧
      (parse "(f :`a b` TRUE)").map deparse = .ok "(f :`a b` TRUE)" := by
  have read : ((parse "( `f`\t:`a b` TRUE)").map deparse).toOption = some "(f :`a b` TRUE)" := by
    decide +kernel
  have once : (parse "( `f`\t:`a b` TRUE)").map deparse = .ok "(f :`a b` TRUE)" := by
    generalize (parse "( `f`\t:`a b` TRUE)").map deparse = outcome at read ⊢
    cases outcome with
    | error err => cases read
    | ok written => exact congrArg Except.ok (Option.some.inj read)
  exact ⟨once, reads_back.2.2 _ _ once⟩

end Expr

end ValueChannels
