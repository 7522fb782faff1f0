import ValueChannels.Expr.Printer
import ValueChannels.Proofs.Expr.Grammar
import ValueChannels.Proofs.Expr.Splitting

/-!
The written form of an expression as tokens. Numbers and words are atoms, and everything else
stands in quotes or between parentheses, so that the tokens are found again wherever the text is
cut. Main statement: `scans_deparse`.
-/

namespace ValueChannels

/-! ### Characters of atoms -/

namespace Token

/-- Letters, digits, the minus sign and the point, of which numerals and words are made. -/
def isNumeralChar (c : Char) : Bool :=
  c.isAlphanum || c == '-' || c == '.'

theorem isAtomChar_of_isNumeralChar {c : Char} (numeral : isNumeralChar c = true) :
    isAtomChar c = true ∧ c ≠ ':' := by
  have code : c.val.toNat = c.toNat := rfl
  -- Numerals are made of digits, letters, minus and point; here by their code points.
  have bounds : (48 ≤ c.toNat ∧ c.toNat ≤ 57) ∨ (65 ≤ c.toNat ∧ c.toNat ≤ 90) ∨
      (97 ≤ c.toNat ∧ c.toNat ≤ 122) ∨ c.toNat = 45 ∨ c.toNat = 46 := by
    change (decide ('A'.val ≤ c.val ∧ c.val ≤ 'Z'.val) ||
      (decide ('a'.val ≤ c.val) && decide (c.val ≤ 'z'.val)) ||
      (decide ('0'.val ≤ c.val) && decide (c.val ≤ '9'.val)) || c == '-' || c == '.') = true
      at numeral
    simp only [Bool.or_eq_true, Bool.and_eq_true, decide_eq_true_eq, beq_iff_eq,
      UInt32.le_iff_toNat_le] at numeral
    rcases numeral with (((upper | lower) | digit) | minus) | point
    · exact Or.inr (Or.inl upper)
    · exact Or.inr (Or.inr (Or.inl lower))
    · exact Or.inl digit
    · rw [minus]
      decide
    · rw [point]
      decide
  have differs {other : Char} (code : other.toNat < 45 ∨ other.toNat = 58 ∨ other.toNat = 96) :
      c ≠ other := by
    intro same
    rw [same] at bounds
    omega
  have visible : Text.isWhiteSpace c = false := by
    simp only [Text.isWhiteSpace, Text.CodePointRanges.holds, Text.whiteSpace, List.any_cons,
      List.any_nil, Bool.or_false, Bool.or_eq_false_iff, Bool.and_eq_false_iff,
      decide_eq_false_iff_not]
    omega
  have plain : isDelimiter c = false := by
    simp only [isDelimiter, Bool.or_eq_false_iff, beq_eq_false_iff_ne]
    refine ⟨⟨⟨differs ?_, differs ?_⟩, differs ?_⟩, differs ?_⟩
    · decide
    · decide
    · decide
    · decide
  constructor
  · rw [isAtomChar, visible, plain]
    rfl
  · apply differs
    decide

end Token

/-! ### Numerals -/

/-- A text of an atom that is no name: not empty, and of such characters only. -/
def Atomic (chars : List Char) : Prop :=
  chars ≠ [] ∧ ∀ c ∈ chars, Token.isNumeralChar c = true

theorem Token.isNumeralChar_of_isDigit {c : Char} (digit : c.isDigit = true) :
    isNumeralChar c = true := by
  rw [isNumeralChar, Char.isAlphanum, digit, Bool.or_true, Bool.true_or, Bool.true_or]

theorem Decimal.atomic_signedDigits (n : Int) : Atomic (signedDigits n) := by
  constructor
  · intro empty
    have digits := (List.append_eq_nil_iff.mp empty).2
    exact Nat.toDigits_ne_nil digits
  · intro c member
    rcases mem_signedDigits member with minus | digit
    · rw [minus]
      decide
    · exact Token.isNumeralChar_of_isDigit digit

theorem Double.atomic_written (x : Double) : Atomic (x.written .literal) := by
  have marks : numeralMarks.all Token.isNumeralChar = true := by decide
  refine ⟨x.written_ne_nil, fun c member => ?_⟩
  rcases mem_written member with digit | mark
  · exact Token.isNumeralChar_of_isDigit digit
  · exact List.all_eq_true.mp marks c mark

/-! ### Lexemes -/

namespace Expr

open Token (Encloses Spells)

theorem escapedChar_cases {quote : Char} (isQuote : Token.isDelimiter quote = true) (c : Char) :
    (∃ shown, escapedChar quote c = ['\\', shown] ∧ Token.unescape shown = c) ∨
      (escapedChar quote c = [c] ∧ c ≠ '\\' ∧ c ≠ quote) := by
  unfold escapedChar
  by_cases newline : c = '\n'
  · rw [if_pos newline, newline]
    exact Or.inl ⟨_, rfl, by decide⟩
  by_cases tab : c = '\t'
  · rw [if_neg newline, if_pos tab, tab]
    exact Or.inl ⟨_, rfl, by decide⟩
  by_cases linefeed : c = '\r'
  · rw [if_neg newline, if_neg tab, if_pos linefeed, linefeed]
    exact Or.inl ⟨_, rfl, by decide⟩
  rw [if_neg newline, if_neg tab, if_neg linefeed]
  by_cases slash : c = '\\'
  · rw [if_pos slash, slash]
    exact Or.inl ⟨_, rfl, by decide⟩
  rw [if_neg slash]
  by_cases same : c = quote
  · rw [if_pos same]
    have notLetter {letter : Char} (plain : Token.isDelimiter letter = false) : c ≠ letter := by
      intro equal
      rw [← same, equal, plain] at isQuote
      cases isQuote
    refine Or.inl ⟨c, rfl, ?_⟩
    rw [Token.unescape, if_neg (notLetter (by decide)), if_neg (notLetter (by decide)),
      if_neg (notLetter (by decide))]
  · rw [if_neg same]
    exact Or.inr ⟨rfl, slash, same⟩

theorem encloses_escaped (quote : Char) (isQuote : Token.isDelimiter quote = true)
    (content : List Char) :
    Encloses quote content (content.flatMap (escapedChar quote) ++ [quote]) := by
  induction content with
  | nil => exact .closed
  | cons c rest ih =>
      rw [List.flatMap_cons, List.append_assoc]
      rcases escapedChar_cases isQuote c with ⟨shown, written, meaning⟩ | ⟨written, slash, other⟩
      · have escaped := Encloses.escaped shown ih
        rw [meaning] at escaped
        rw [written]
        exact escaped
      · rw [written]
        exact .plain other slash ih

/-! ### Tokens of an expression -/

def symbolToken (name : String) : Token :=
  if needsQuotes name then .quotedSymbol name else .atom name

def constantToken : Constant → Token
  | .text content => .text content
  | value => .atom (String.ofList (constantChars value))

mutual

/-- The tokens of the written form. -/
def tokens : Expr → List Token
  | .symbol name => [symbolToken name]
  | .constant value => [constantToken value]
  | .call function arguments =>
      .openParen :: (function.tokens ++ (argumentTokens arguments ++ [.closeParen]))

def argumentTokens : List (Argument Expr) → List Token
  | [] => []
  | argument :: rest => nameTokens argument.name ++ (argument.value.tokens ++ argumentTokens rest)

end

/-! ### Scanning -/

/-- A text splits into these tokens, wherever it starts. -/
def Scans (chars : List Char) (tokens : List Token) : Prop :=
  ∀ offset, ∃ placed, Token.scanFrom offset chars = .ok placed ∧
    placed.map PlacedToken.token = tokens

theorem scans_nil : Scans [] [] := by
  intro offset
  refine ⟨[], ?_, rfl⟩
  rw [Token.scanFrom]

theorem scans_space {behind : List Char} {tokens : List Token} (scans : Scans behind tokens) :
    Scans (' ' :: behind) tokens := by
  intro offset
  obtain ⟨placed, scanned, same⟩ := scans (offset + Char.utf8Size ' ')
  refine ⟨placed, ?_, same⟩
  rw [Token.scanFrom, dif_pos (by decide), scanned]

theorem scans_token {token : Token} {source behind : List Char} {tokens : List Token}
    (spells : Spells behind token source) (scans : Scans behind tokens) :
    Scans (source ++ behind) (token :: tokens) := by
  intro offset
  obtain ⟨placed, scanned, same⟩ := scans (offset + Text.byteLength source)
  refine ⟨{ token, offset } :: placed, ?_, congrArg _ same⟩
  exact Token.scanFrom_of_splits (.token spells (Token.splits_of_scanFrom scanned))

section Scanning

variable {behind : List Char} {after : List Token}

theorem spells_text (content : String) (behind : List Char) :
    Spells behind (.text content) (quotedChars Token.textQuote content.toList) := by
  have spells : Spells behind _ _ :=
    .text (encloses_escaped Token.textQuote (by decide) content.toList)
  rw [String.ofList_toList] at spells
  exact spells

theorem spells_quotedSymbol (name : String) (behind : List Char) :
    Spells behind (.quotedSymbol name) (quotedChars Token.symbolQuote name.toList) := by
  have spells : Spells behind _ _ :=
    .quotedSymbol (encloses_escaped Token.symbolQuote (by decide) name.toList)
  rw [String.ofList_toList] at spells
  exact spells

theorem ofAtom_symbol {spelling name : String} (symbol : ofAtom spelling = .symbol name) :
    name = spelling := by
  unfold ofAtom at symbol
  by_cases isNull : spelling = "NULL"
  · rw [if_pos isNull] at symbol
    cases symbol
  by_cases isTrue : spelling = "TRUE"
  · rw [if_neg isNull, if_pos isTrue] at symbol
    cases symbol
  by_cases isFalse : spelling = "FALSE"
  · rw [if_neg isNull, if_neg isTrue, if_pos isFalse] at symbol
    cases symbol
  rw [if_neg isNull, if_neg isTrue, if_neg isFalse] at symbol
  dsimp only at symbol
  split at symbol
  · cases symbol
  · cases symbol
  · exact (Expr.symbol.inj symbol).symm

/-- A name that needs no quotes is an atom and reads as a symbol. -/
theorem plain_name {name : String} (plain : needsQuotes name = false) :
    name.toList ≠ [] ∧ (∀ c ∈ name.toList, Token.isAtomChar c = true) ∧
      name.toList.head? ≠ some ':' ∧ ofAtom name = .symbol name := by
  simp only [needsQuotes, Bool.or_eq_false_iff, List.isEmpty_eq_false_iff, beq_eq_false_iff_ne,
    List.any_eq_false, Bool.not_eq_true', Bool.or_eq_true, not_or, Bool.not_eq_false',
    Bool.not_eq_false] at plain
  obtain ⟨⟨⟨something, noName⟩, atom⟩, isSymbol⟩ := plain
  refine ⟨something, fun c member => (atom c member).1, noName, ?_⟩
  split at isSymbol
  · rename_i found spelled
    rw [spelled, ofAtom_symbol spelled]
  · cases isSymbol

theorem spells_name (name : String) (ends : Ends behind) :
    Spells behind (.argumentName name) (':' :: symbolChars name) := by
  unfold symbolChars
  by_cases quotes : needsQuotes name = true
  · rw [if_pos quotes]
    have spells : Spells behind _ _ :=
      .quotedName (encloses_escaped Token.symbolQuote (by decide) name.toList)
    rw [String.ofList_toList] at spells
    exact spells
  · have plain := plain_name (Bool.eq_false_iff.mpr quotes)
    rw [if_neg quotes]
    have spells := Spells.name plain.1 plain.2.1 ends
    rw [String.ofList_toList] at spells
    exact spells

theorem spells_symbol (name : String) (ends : Ends behind) :
    Spells behind (symbolToken name) (symbolChars name) := by
  unfold symbolChars symbolToken
  by_cases quotes : needsQuotes name = true
  · rw [if_pos quotes, if_pos quotes]
    exact spells_quotedSymbol name behind
  · have plain := plain_name (Bool.eq_false_iff.mpr quotes)
    rw [if_neg quotes, if_neg quotes]
    have spells := Spells.atom plain.1 plain.2.1 plain.2.2.1 ends
    rw [String.ofList_toList] at spells
    exact spells

theorem spells_atomic {word : List Char} (atomic : Atomic word) (ends : Ends behind) :
    Spells behind (.atom (String.ofList word)) word := by
  refine .atom atomic.1 (fun c member => ?_) ?_ ends
  · exact (Token.isAtomChar_of_isNumeralChar (atomic.2 c member)).1
  · intro colon
    have member := List.mem_of_mem_head? colon
    exact (Token.isAtomChar_of_isNumeralChar (atomic.2 _ member)).2 rfl

theorem spells_constant (value : Constant) (ends : Ends behind) :
    Spells behind (constantToken value) (constantChars value) := by
  have word {chars : List Char} (something : chars ≠ [])
      (numeral : chars.all Token.isNumeralChar = true) : Atomic chars :=
    ⟨something, List.all_eq_true.mp numeral⟩
  cases value with
  | null => exact spells_atomic (word (by decide) (by decide)) ends
  | logical value =>
      cases value with
      | true => exact spells_atomic (word (by decide) (by decide)) ends
      | false => exact spells_atomic (word (by decide) (by decide)) ends
  | integer n =>
      refine spells_atomic ⟨?_, ?_⟩ ends
      · intro empty
        exact List.cons_ne_nil _ _ (List.append_eq_nil_iff.mp empty).2
      · intro c member
        rcases List.mem_append.mp member with digit | suffix
        · exact (Decimal.atomic_signedDigits _).2 c digit
        · rw [List.mem_singleton.mp suffix]
          decide
  | double x => exact spells_atomic x.atomic_written ends
  | text content => exact spells_text content behind

theorem ends_arguments (arguments : List (Argument Expr)) (behind : List Char) :
    Ends (argumentChars arguments ++ ')' :: behind) := by
  intro c same
  cases arguments with
  | nil =>
      rw [argumentChars_nil] at same
      cases same
      decide
  | cons argument rest =>
      rw [argumentChars_cons] at same
      cases same
      decide

theorem scans_names (name : Option String) (scans : Scans behind after) :
    Scans (nameChars name ++ behind) (nameTokens name ++ after) := by
  cases name with
  | none => exact scans
  | some name =>
      have ends : Ends (' ' :: behind) := by
        intro c same
        cases same
        decide
      have chars : nameChars (some name) ++ behind = (':' :: symbolChars name) ++ ' ' :: behind := by
        simp [nameChars]
      rw [chars]
      exact scans_token (spells_name name ends) (scans_space scans)

end Scanning

mutual

/-- The written form splits into the tokens of the expression, in front of anything that an atom
ends at. -/
theorem scans_chars (expr : Expr) {behind : List Char} {after : List Token} (ends : Ends behind)
    (scans : Scans behind after) : Scans (expr.chars ++ behind) (expr.tokens ++ after) := by
  cases expr with
  | symbol name =>
      rw [chars_symbol, tokens]
      exact scans_token (spells_symbol name ends) scans
  | constant value =>
      rw [chars_constant, tokens]
      exact scans_token (spells_constant value ends) scans
  | call function arguments =>
      rw [chars_call, tokens]
      simp only [List.cons_append, List.append_assoc, List.nil_append]
      apply scans_token .openParen
      apply scans_chars function (ends_arguments arguments behind)
      exact scans_arguments arguments (scans_token .closeParen scans)

theorem scans_arguments (arguments : List (Argument Expr)) {behind : List Char}
    {after : List Token} (scans : Scans (')' :: behind) after) :
    Scans (argumentChars arguments ++ ')' :: behind) (argumentTokens arguments ++ after) := by
  cases arguments with
  | nil =>
      rw [argumentChars_nil, argumentTokens]
      exact scans
  | cons argument rest =>
      obtain ⟨name, value⟩ := argument
      rw [argumentChars_cons, argumentTokens]
      simp only [List.cons_append, List.append_assoc]
      apply scans_space
      apply scans_names
      apply scans_chars value (ends_arguments rest behind)
      exact scans_arguments rest scans

end

/-- The written form of an expression splits into its tokens. -/
theorem scans_deparse (expr : Expr) : ∃ placed, Token.scan expr.deparse = .ok placed ∧
    placed.map PlacedToken.token = expr.tokens := by
  have ends : Ends [] := fun c impossible => nomatch impossible
  obtain ⟨placed, scanned, same⟩ := scans_chars expr ends scans_nil 0
  rw [List.append_nil] at scanned same
  refine ⟨placed, ?_, same⟩
  rw [Token.scan, deparse, String.toList_ofList, scanned]

end Expr

end ValueChannels
