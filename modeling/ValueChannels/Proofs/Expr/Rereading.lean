import ValueChannels.Proofs.Expr.Spelling

/-!
Reading the written form of an expression. The parser accepts it whatever the names, texts and
nesting are, and finds the same calls and symbols; a constant is what its numeral is read as. Main
statement: `parse_deparse`.
-/

namespace ValueChannels.Expr

/-- What the written form of a constant is read as. -/
def rereadConstant : Constant → Expr
  | .text content => .constant (.text content)
  | value => ofAtom (String.ofList (constantChars value))

mutual

/-- What the written form of an expression is read as. -/
def reread : Expr → Expr
  | .symbol name => .symbol name
  | .constant value => rereadConstant value
  | .call function arguments => .call function.reread (rereadArguments arguments)

def rereadArguments : List (Argument Expr) → List (Argument Expr)
  | [] => []
  | argument :: rest => ⟨argument.name, argument.value.reread⟩ :: rereadArguments rest

end

theorem derives_symbol (name : String) : Derives (.symbol name) [symbolToken name] := by
  unfold symbolToken
  by_cases quotes : needsQuotes name = true
  · rw [if_pos quotes]
    exact .quotedSymbol name
  · have plain := plain_name (Bool.eq_false_iff.mpr quotes)
    have atom := Derives.atom name
    rw [plain.2.2.2] at atom
    rw [if_neg quotes]
    exact atom

theorem derives_constant (value : Constant) :
    Derives (rereadConstant value) [constantToken value] := by
  cases value with
  | text content => exact .text content
  | null => exact .atom (String.ofList (constantChars .null))
  | logical value => exact .atom (String.ofList (constantChars (.logical value)))
  | integer n => exact .atom (String.ofList (constantChars (.integer n)))
  | double x => exact .atom (String.ofList (constantChars (.double x)))

mutual

theorem derives_tokens (expr : Expr) : Derives expr.reread expr.tokens := by
  cases expr with
  | symbol name =>
      rw [reread, tokens]
      exact derives_symbol name
  | constant value =>
      rw [reread, tokens]
      exact derives_constant value
  | call function arguments =>
      rw [reread, tokens]
      exact .call (derives_tokens function) (derives_arguments arguments)

theorem derives_arguments (arguments : List (Argument Expr)) :
    DerivesArguments (rereadArguments arguments) (argumentTokens arguments) := by
  cases arguments with
  | nil =>
      rw [rereadArguments, argumentTokens]
      exact .nil
  | cons argument others =>
      obtain ⟨name, value⟩ := argument
      rw [rereadArguments, argumentTokens]
      exact .cons name (derives_tokens value) (derives_arguments others)

end

/-- The written form of an expression parses, whatever its names, texts and nesting are, as the
expression whose constants are what their numerals are read as. -/
theorem parse_deparse (expr : Expr) : parse expr.deparse = .ok expr.reread := by
  obtain ⟨placed, scanned, spelled⟩ := scans_deparse expr
  rw [parse, scanned]
  apply derives_iff.mpr
  rw [spelled]
  exact derives_tokens expr

end ValueChannels.Expr
