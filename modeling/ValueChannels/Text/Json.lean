import ValueChannels.Number.Numeral

/-!
Reading JSON as far as configurations need it: numbers are kept only where they are natural
numbers, and texts only where their escapes are proper characters.
-/

namespace ValueChannels

inductive Json where
  | null
  | bool (value : Bool)
  /-- A number, with its value if it is written as a natural number. -/
  | number (natural : Option Nat)
  /-- A text, unless it escapes half of a surrogate pair. -/
  | text (content : Option String)
  | array (items : List Json)
  | object (members : List (Option String × Json))
  deriving Inhabited

namespace Json

def isBlank (c : Char) : Bool :=
  c == ' ' || c == '\n' || c == '\t' || c == '\r'

def skipBlanks (chars : List Char) : List Char :=
  chars.dropWhile isBlank

def hexDigit? (c : Char) : Option Nat :=
  if '0' ≤ c ∧ c ≤ '9' then some (c.toNat - '0'.toNat)
  else if 'a' ≤ c ∧ c ≤ 'f' then some (c.toNat - 'a'.toNat + 10)
  else if 'A' ≤ c ∧ c ≤ 'F' then some (c.toNat - 'A'.toNat + 10)
  else none

def hexUnit? (digits : List Char) : Option Nat :=
  (digits.mapM hexDigit?).map fun values => values.foldl (fun n digit => 16 * n + digit) 0

/-- The character that a letter behind a backslash stands for. -/
def escape? (c : Char) : Option Char :=
  match c with
  | '"' => some '"'
  | '\\' => some '\\'
  | '/' => some '/'
  | 'b' => some '\x08'
  | 'f' => some '\x0c'
  | 'n' => some '\n'
  | 'r' => some '\r'
  | 't' => some '\t'
  | _ => none

/-- The code points and surrogates up to the closing quote, and what follows it. -/
def takeUnits : List Char → Option (List Nat × List Char)
  | [] => none
  | '"' :: rest => some ([], rest)
  | '\\' :: 'u' :: a :: b :: c :: d :: rest =>
      match hexUnit? [a, b, c, d] with
      | some unit => (takeUnits rest).map fun (units, after) => (unit :: units, after)
      | none => none
  | '\\' :: c :: rest =>
      match escape? c with
      | some char => (takeUnits rest).map fun (units, after) => (char.toNat :: units, after)
      | none => none
  | c :: rest =>
      if c.toNat < 0x20 ∨ c = '\\' then none
      else (takeUnits rest).map fun (units, after) => (c.toNat :: units, after)

/-- Joins the halves of surrogate pairs. -/
def joinUnits : List Nat → Option (List Char)
  | [] => some []
  | unit :: rest =>
      if 0xD800 ≤ unit ∧ unit < 0xDC00 then
        match rest with
        | low :: more =>
            if 0xDC00 ≤ low ∧ low < 0xE000 then
              let point := 0x10000 + (unit - 0xD800) * 0x400 + (low - 0xDC00)
              (joinUnits more).map (Char.ofNat point :: ·)
            else none
        | [] => none
      else if 0xDC00 ≤ unit ∧ unit < 0xE000 then none
      else (joinUnits rest).map (Char.ofNat unit :: ·)

def takeText (chars : List Char) : Option (Option String × List Char) :=
  (takeUnits chars).map fun (units, rest) => ((joinUnits units).map String.ofList, rest)

/-- Digits that are there, and what follows them. -/
def takeDigits (chars : List Char) : Option (List Char × List Char) :=
  let digits := chars.takeWhile Char.isDigit
  if digits.isEmpty then none else some (digits, chars.dropWhile Char.isDigit)

/-- The places behind the point of a number, if it has a point. -/
def skipPlaces : List Char → Option (Bool × List Char)
  | '.' :: rest => (takeDigits rest).map fun (_, after) => (true, after)
  | chars => some (false, chars)

def skipExponent : List Char → Option (Bool × List Char)
  | mark :: rest =>
      if mark = 'e' ∨ mark = 'E' then
        (takeDigits (Numeral.takeSign rest).2).map fun (_, after) => (true, after)
      else
        some (false, mark :: rest)
  | [] => some (false, [])

/-- A number. No zero stands in front of other digits, and only digits alone are a natural
number. -/
def takeNumber (chars : List Char) : Option (Json × List Char) :=
  let (negative, unsigned) := match chars with
    | '-' :: rest => (true, rest)
    | _ => (false, chars)
  match takeDigits unsigned with
  | none => none
  | some (digits, rest) =>
      if digits.head? = some '0' ∧ digits.length ≠ 1 then none
      else
        match skipPlaces rest with
        | none => none
        | some (hasPlaces, rest) =>
            match skipExponent rest with
            | none => none
            | some (hasExponent, rest) =>
                let natural := if negative || hasPlaces || hasExponent then none
                  else some (Numeral.digitsValue digits)
                some (.number natural, rest)

/-- The value with a fixed spelling, when the text starts with that. -/
def takeWord (word : String) (value : Json) (chars : List Char) : Option (Json × List Char) :=
  if word.toList.isPrefixOf chars then some (value, chars.drop word.length) else none

mutual

/-- Reads a value that starts at once. Every value and every level of nesting takes a unit of
fuel. -/
def takeValue : Nat → List Char → Option (Json × List Char)
  | 0, _ => none
  | fuel + 1, chars =>
      match chars with
      | '"' :: rest => (takeText rest).map fun (content, after) => (.text content, after)
      | '[' :: rest =>
          match skipBlanks rest with
          | ']' :: after => some (.array [], after)
          | first => (takeItems fuel first).map fun (items, after) => (.array items, after)
      | '\x7b' :: rest =>
          match skipBlanks rest with
          | '\x7d' :: after => some (.object [], after)
          | first =>
              (takeMembers fuel first).map fun (members, after) => (.object members, after)
      | 'n' :: _ => takeWord "null" .null chars
      | 't' :: _ => takeWord "true" (.bool true) chars
      | 'f' :: _ => takeWord "false" (.bool false) chars
      | _ => takeNumber chars

def takeItems : Nat → List Char → Option (List Json × List Char)
  | 0, _ => none
  | fuel + 1, chars =>
      match takeValue fuel chars with
      | none => none
      | some (item, rest) =>
          match skipBlanks rest with
          | ']' :: after => some ([item], after)
          | ',' :: next =>
              (takeItems fuel (skipBlanks next)).map fun (items, after) => (item :: items, after)
          | _ => none

def takeMembers : Nat → List Char → Option (List (Option String × Json) × List Char)
  | 0, _ => none
  | fuel + 1, chars =>
      match chars with
      | '"' :: rest =>
          match takeText rest with
          | none => none
          | some (name, rest) =>
              match skipBlanks rest with
              | ':' :: rest =>
                  match takeValue fuel (skipBlanks rest) with
                  | none => none
                  | some (value, rest) =>
                      match skipBlanks rest with
                      | '\x7d' :: after => some ([(name, value)], after)
                      | ',' :: next =>
                          (takeMembers fuel (skipBlanks next)).map fun (members, after) =>
                            ((name, value) :: members, after)
                      | _ => none
              | _ => none
      | _ => none

end

/-- The one value that a text holds, with blanks around it. -/
def parse? (text : String) : Option Json :=
  let chars := skipBlanks text.toList
  match takeValue (chars.length + 1) chars with
  | some (value, rest) => if (skipBlanks rest).isEmpty then some value else none
  | none => none

def natural? : Json → Option Nat
  | .number (some n) => if n < UInt64.size then some n else none
  | _ => none

end Json

end ValueChannels
