import ValueChannels.Text.CodePoints

/-!
The tokens of expressions and the characters they are made of: parentheses, quoted strings and
symbols, argument names behind a colon, and atoms. Positions are byte offsets in UTF-8.
-/

namespace ValueChannels

inductive Token where
  | openParen
  | closeParen
  | text (content : String)
  | quotedSymbol (name : String)
  | argumentName (name : String)
  | atom (spelling : String)
  deriving DecidableEq, Repr

structure PlacedToken where
  token : Token
  offset : Nat
  deriving DecidableEq, Repr

inductive QuotedForm where
  | text
  | symbol
  deriving DecidableEq, Repr

inductive ParseError where
  | endOfInput
  | unexpectedToken (spelling : String) (offset : Nat)
  | unclosedParen (offset : Nat)
  | unterminated (form : QuotedForm) (offset : Nat)
  | danglingName (name : String)
  | trailingInput (offset : Nat)
  deriving DecidableEq, Repr

def QuotedForm.description : QuotedForm → String
  | .text => "string literal"
  | .symbol => "quoted symbol"

def ParseError.message : ParseError → String
  | .endOfInput => "unexpected end of input"
  | .unexpectedToken spelling offset =>
      "unexpected token '" ++ spelling ++ "' at offset " ++ toString offset
  | .unclosedParen offset => "unclosed delimiter opened at offset " ++ toString offset
  | .unterminated form offset =>
      "unterminated " ++ form.description ++ " starting at offset " ++ toString offset
  | .danglingName name => "argument name ':" ++ name ++ "' is not followed by a value"
  | .trailingInput offset => "trailing input at offset " ++ toString offset

namespace Token

def textQuote : Char := '"'

def symbolQuote : Char := '\x60'

/-- The characters that end an atom besides white space. -/
def isDelimiter (c : Char) : Bool :=
  c == '(' || c == ')' || c == textQuote || c == symbolQuote

/-- The characters that an atom is made of. -/
def isAtomChar (c : Char) : Bool :=
  !Text.isWhiteSpace c && !isDelimiter c

/-- What a character stands for behind a backslash. -/
def unescape (c : Char) : Char :=
  if c = 'n' then '\n' else if c = 't' then '\t' else if c = 'r' then '\r' else c

end Token

end ValueChannels
