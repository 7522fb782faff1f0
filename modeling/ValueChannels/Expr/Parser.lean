import ValueChannels.Expr.Basic
import ValueChannels.Expr.Lexeme
import ValueChannels.Number.Numeral

/-!
Reading expressions. The tokens are consumed one by one; the calls that are still open are
kept on a stack with the innermost call on top.
-/

namespace ValueChannels

namespace Expr

/-- What an atom stands for: one of three words, a whole number with the suffix `L`, a double,
or else the symbol of that name. -/
def ofAtom (spelling : String) : Expr :=
  let chars := spelling.toList
  if spelling = "NULL" then .constant .null
  else if spelling = "TRUE" then .constant (.logical true)
  else if spelling = "FALSE" then .constant (.logical false)
  else
    let whole := if chars.getLast? = some 'L' then Numeral.int32? chars.dropLast else none
    match whole, Numeral.double? chars with
    | some n, _ => .constant (.integer n)
    | none, some x => .constant (.double x)
    | none, none => .symbol spelling

/-- A call whose closing parenthesis has not been met: where it was opened, its function once
that is read, its arguments so far with the latest first, and the name for the next one. -/
structure OpenCall where
  offset : Nat
  function : Option Expr
  arguments : List (Argument Expr)
  name : Option String

/-- How far the tokens read so far have come: to the end of an expression, or into the calls
that are still open, the innermost first. -/
inductive Progress where
  | complete (expr : Expr)
  | inside (calls : List OpenCall)

namespace OpenCall

def opened (offset : Nat) : OpenCall :=
  { offset, function := none, arguments := [], name := none }

def accept (parent : OpenCall) (expr : Expr) : OpenCall :=
  match parent.function with
  | none => { parent with function := some expr }
  | some _ => { parent with arguments := ⟨parent.name, expr⟩ :: parent.arguments, name := none }

/-- The finished call, at a closing parenthesis at the given offset. -/
def close (current : OpenCall) (offset : Nat) : Except ParseError Expr :=
  match current.function, current.name with
  | none, _ => .error (.unexpectedToken "()" offset)
  | some _, some name => .error (.danglingName name)
  | some function, none => .ok (.call function current.arguments.reverse)

def named (current : OpenCall) (name : String) (offset : Nat) : Except ParseError OpenCall :=
  if current.function.isNone || current.name.isSome then
    .error (.unexpectedToken (":" ++ name) offset)
  else
    .ok { current with name := some name }

end OpenCall

/-- Hands a complete expression to the innermost open call. -/
def Progress.deliver (expr : Expr) : List OpenCall → Progress
  | [] => .complete expr
  | innermost :: outer => .inside (innermost.accept expr :: outer)

def Progress.step (calls : List OpenCall) (next : PlacedToken) : Except ParseError Progress :=
  match next.token, calls with
  | .openParen, _ => .ok (.inside (OpenCall.opened next.offset :: calls))
  | .closeParen, [] => .error (.unexpectedToken ")" next.offset)
  | .closeParen, innermost :: outer =>
      (innermost.close next.offset).map fun complete => deliver complete outer
  | .argumentName name, [] => .error (.unexpectedToken (":" ++ name) next.offset)
  | .argumentName name, innermost :: outer =>
      (innermost.named name next.offset).map fun waiting => .inside (waiting :: outer)
  | .text content, _ => .ok (deliver (.constant (.text content)) calls)
  | .quotedSymbol name, _ => .ok (deliver (.symbol name) calls)
  | .atom spelling, _ => .ok (deliver (ofAtom spelling) calls)

/-- Reads one expression to the end of the tokens, inside the given open calls. -/
def readTokens : List OpenCall → List PlacedToken → Except ParseError Expr
  | [], [] => .error .endOfInput
  | innermost :: _, [] =>
      match innermost.name with
      | some name => .error (.danglingName name)
      | none => .error (.unclosedParen innermost.offset)
  | calls, next :: rest =>
      match Progress.step calls next, rest with
      | .error err, _ => .error err
      | .ok (.inside deeper), _ => readTokens deeper rest
      | .ok (.complete expr), [] => .ok expr
      | .ok (.complete _), trailing :: _ => .error (.trailingInput trailing.offset)

def parse (code : String) : Except ParseError Expr :=
  match Token.scan code with
  | .ok tokens => readTokens [] tokens
  | .error err => .error err

end Expr

end ValueChannels
