import ValueChannels.Expr.Parser

/-!
Writing expressions. A call is its function and its arguments in parentheses, separated by
single spaces. Symbols and names that would read as something else stand in backquotes. Main
statement: a call's characters are those of its parts in order, each written once.
-/

namespace ValueChannels

namespace Expr

def escapedChar (quote c : Char) : List Char :=
  if c = '\n' then ['\\', 'n']
  else if c = '\t' then ['\\', 't']
  else if c = '\r' then ['\\', 'r']
  else if c = '\\' then ['\\', '\\']
  else if c = quote then ['\\', c]
  else [c]

def quotedChars (quote : Char) (text : List Char) : List Char :=
  quote :: text.flatMap (escapedChar quote) ++ [quote]

/-- Whether a bare name would not be read back as a symbol of this name. -/
def needsQuotes (name : String) : Bool :=
  let chars := name.toList
  chars.isEmpty || chars.head? == some ':'
    || chars.any (fun c => !Token.isAtomChar c || c == '\\')
    || !(match ofAtom name with | .symbol _ => true | _ => false)

def symbolChars (name : String) : List Char :=
  if needsQuotes name then quotedChars Token.symbolQuote name.toList else name.toList

def constantChars : Constant → List Char
  | .null => "NULL".toList
  | .logical true => "TRUE".toList
  | .logical false => "FALSE".toList
  | .integer n => Decimal.signedDigits n.toInt ++ ['L']
  | .double x => x.written .literal
  | .text content => quotedChars Token.textQuote content.toList

/-- The name of an argument behind a colon, and the space before its value. -/
def nameChars : Option String → List Char
  | some name => ':' :: symbolChars name ++ [' ']
  | none => []

mutual

/-- The characters of the written form, in front of those that follow it. What is already
written is never copied again, however deep the calls nest. -/
def writeBefore : Expr → List Char → List Char
  | .symbol name, behind => symbolChars name ++ behind
  | .constant value, behind => constantChars value ++ behind
  | .call function arguments, behind =>
      '(' :: function.writeBefore (writeArgumentsBefore arguments (')' :: behind))

/-- The arguments of a call, each behind a space. -/
def writeArgumentsBefore : List (Argument Expr) → List Char → List Char
  | [], behind => behind
  | argument :: rest, behind =>
      ' ' :: (nameChars argument.name
        ++ argument.value.writeBefore (writeArgumentsBefore rest behind))

end

def chars (expr : Expr) : List Char :=
  expr.writeBefore []

def argumentChars (arguments : List (Argument Expr)) : List Char :=
  writeArgumentsBefore arguments []

mutual

theorem writeBefore_append (expr : Expr) (first second : List Char) :
    expr.writeBefore (first ++ second) = expr.writeBefore first ++ second := by
  cases expr with
  | symbol name => simp [writeBefore]
  | constant value => simp [writeBefore]
  | call function arguments =>
      simp only [writeBefore, List.cons_append]
      rw [← List.cons_append, writeArgumentsBefore_append arguments, writeBefore_append function]

theorem writeArgumentsBefore_append (arguments : List (Argument Expr))
    (first second : List Char) :
    writeArgumentsBefore arguments (first ++ second)
      = writeArgumentsBefore arguments first ++ second := by
  cases arguments with
  | nil => simp [writeArgumentsBefore]
  | cons argument rest =>
      obtain ⟨name, value⟩ := argument
      simp only [writeArgumentsBefore, List.cons_append, List.append_assoc]
      rw [writeArgumentsBefore_append rest, writeBefore_append value]

end

theorem writeBefore_eq (expr : Expr) (behind : List Char) :
    expr.writeBefore behind = expr.chars ++ behind :=
  expr.writeBefore_append [] behind

theorem writeArgumentsBefore_eq (arguments : List (Argument Expr)) (behind : List Char) :
    writeArgumentsBefore arguments behind = argumentChars arguments ++ behind :=
  writeArgumentsBefore_append arguments [] behind

@[simp] theorem chars_symbol (name : String) : (Expr.symbol name).chars = symbolChars name := by
  simp [chars, writeBefore]

@[simp] theorem chars_constant (value : Constant) :
    (Expr.constant value).chars = constantChars value := by
  simp [chars, writeBefore]

@[simp] theorem chars_call (function : Expr) (arguments : List (Argument Expr)) :
    (Expr.call function arguments).chars
      = '(' :: (function.chars ++ (argumentChars arguments ++ [')'])) := by
  rw [chars, writeBefore, writeBefore_eq, writeArgumentsBefore_eq]

@[simp] theorem argumentChars_nil : argumentChars [] = [] := by
  simp [argumentChars, writeArgumentsBefore]

@[simp] theorem argumentChars_cons (argument : Argument Expr) (rest : List (Argument Expr)) :
    argumentChars (argument :: rest)
      = ' ' :: (nameChars argument.name ++ (argument.value.chars ++ argumentChars rest)) := by
  rw [argumentChars, writeArgumentsBefore, writeBefore_eq, writeArgumentsBefore_eq,
    List.append_nil]

def deparse (expr : Expr) : String :=
  String.ofList expr.chars

end Expr

end ValueChannels
