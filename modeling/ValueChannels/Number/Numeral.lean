import ValueChannels.Number.Shortest

/-!
Numerals: the text of a double, whole numbers with an optional sign, and the reading of
both. `NumeralStyle` holds the decisions of the written form.
-/

namespace ValueChannels

/-- The decisions of a written form: between which positions of the point a number is written
without an exponent, and the words for the values that are no numbers. -/
structure NumeralStyle where
  firstPlainPosition : Int
  lastPlainPosition : Int
  notANumber : String
  infinity : String

/-- Numbers from one ten-thousandth up to and without `10 ^ 16` are written plainly. A plain
numeral always keeps a digit behind the point, so it never reads as a whole number. -/
def NumeralStyle.literal : NumeralStyle :=
  { firstPlainPosition := -3, lastPlainPosition := 16, notANumber := "NaN", infinity := "inf" }

namespace Decimal

def significantDigits (decimal : Decimal) : List Char :=
  ((Nat.toDigits 10 decimal.digits).reverse.dropWhile (· == '0')).reverse

def pointPosition (decimal : Decimal) : Int :=
  (Nat.toDigits 10 decimal.digits).length + decimal.exponent

/-- Digits around a point, with zeros up to the point and at least one digit on each side. -/
def plain (digits : List Char) (position : Int) : List Char :=
  if position ≤ 0 then
    '0' :: '.' :: (List.replicate (-position).toNat '0' ++ digits)
  else if digits.length ≤ position.toNat then
    digits ++ List.replicate (position.toNat - digits.length) '0' ++ ['.', '0']
  else
    digits.take position.toNat ++ '.' :: digits.drop position.toNat

def signedDigits (n : Int) : List Char :=
  (if n < 0 then ['-'] else []) ++ Nat.toDigits 10 n.natAbs

/-- One digit in front of the point, no point behind a lone digit, then the exponent. -/
def scientific (digits : List Char) (position : Int) : List Char :=
  let mantissa := match digits with
    | first :: second :: more => first :: '.' :: second :: more
    | few => few
  mantissa ++ 'e' :: signedDigits (position - 1)

end Decimal

def Double.written (style : NumeralStyle) (x : Double) : List Char :=
  let sign := if x.negative then ['-'] else []
  if x.isNaN then style.notANumber.toList
  else if x.isInfinite then sign ++ style.infinity.toList
  else if x.magnitude = 0 then sign ++ ['0', '.', '0']
  else
    let decimal := x.shortest
    let digits := decimal.significantDigits
    let position := decimal.pointPosition
    if style.firstPlainPosition ≤ position ∧ position ≤ style.lastPlainPosition then
      sign ++ Decimal.plain digits position
    else
      sign ++ Decimal.scientific digits position

namespace Numeral

def digitsValue (digits : List Char) : Nat :=
  digits.foldl (fun value digit => 10 * value + (digit.toNat - '0'.toNat)) 0

/-- A row of at least one decimal digit and nothing else. -/
def natural? (text : List Char) : Option Nat :=
  if text.isEmpty || !text.all Char.isDigit then none else some (digitsValue text)

/-- A sign, if there is one, and what follows it; `true` is minus. -/
def takeSign : List Char → Bool × List Char
  | '-' :: rest => (true, rest)
  | '+' :: rest => (false, rest)
  | text => (false, text)

/-- A whole number with an optional sign of either kind. -/
def integer? (text : List Char) : Option Int :=
  let (negative, digits) := takeSign text
  (natural? digits).map fun n => if negative then -(n : Int) else n

def int32? (text : List Char) : Option Int32 :=
  match integer? text with
  | some n => if -0x80000000 ≤ n ∧ n < 0x80000000 then some (Int32.ofInt n) else none
  | none => none

/-- The double nearest to `digits * 10 ^ exponent`. Outside of the powers of ten that a double
can reach the result is an infinity or a zero whatever the digits are. -/
def decimalValue (negative : Bool) (digits : Nat) (exponent : Int) : Double :=
  let position := ((Nat.toDigits 10 digits).length : Int) + exponent
  if digits = 0 ∨ position < -330 then Double.zero negative
  else if 310 < position then Double.infinity negative
  else Double.ofRatio negative (digits * Nat.pow 10 exponent.toNat) (Nat.pow 10 (-exponent).toNat)

/-- The exponent at the end of a numeral: nothing, or `e` and a whole number. -/
def exponent? : List Char → Option Int
  | [] => some 0
  | mark :: rest => if mark = 'e' ∨ mark = 'E' then integer? rest else none

/-- A numeral without a sign: digits with at most one point among them or at either end, then an
optional exponent. -/
def unsigned? (negative : Bool) (text : List Char) : Option Double :=
  let whole := text.takeWhile Char.isDigit
  let (places, rest) := match text.dropWhile Char.isDigit with
    | '.' :: more => (more.takeWhile Char.isDigit, more.dropWhile Char.isDigit)
    | more => ([], more)
  if whole.isEmpty && places.isEmpty then none
  else (exponent? rest).map fun exponent =>
    decimalValue negative (digitsValue (whole ++ places)) (exponent - places.length)

/-- A double: a numeral, or one of the words for infinity and for no number in any case, each
with an optional sign. -/
def double? (text : List Char) : Option Double :=
  let (negative, body) := takeSign text
  let word := String.ofList (body.map Char.toLower)
  if word = "inf" ∨ word = "infinity" then some (Double.infinity negative)
  else if word = "nan" then some (Double.notANumber negative)
  else unsigned? negative body

end Numeral

end ValueChannels
