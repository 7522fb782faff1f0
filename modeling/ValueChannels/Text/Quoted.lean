import ValueChannels.Text.Printable

/-!
Texts for inspection: quoted strings and the bracketed layouts of lists and records.
-/

namespace ValueChannels.Text

/-- A code point in lower-case hexadecimal digits, without leading zeros. -/
def hexDigits (n : Nat) : String :=
  String.ofList (Nat.toDigits 16 n)

/-- One character inside double quotes. Quotes and backslashes are escaped, the common controls
have names, and every other character that does not print is written by its code point. -/
def quotedChar (c : Char) : String :=
  if c = '\x00' then "\\0"
  else if c = '\t' then "\\t"
  else if c = '\r' then "\\r"
  else if c = '\n' then "\\n"
  else if c = '\\' then "\\\\"
  else if c = '"' then "\\\""
  else if isPrintable c then String.singleton c
  else "\\u\x7b" ++ hexDigits c.toNat ++ "\x7d"

/-- A string in double quotes, on one line and with nothing invisible left in it. -/
def quoted (text : String) : String :=
  "\"" ++ String.join (text.toList.map quotedChar) ++ "\""

def inspectBool (b : Bool) : String :=
  if b then "true" else "false"

def bracketed (items : List String) : String :=
  "[" ++ String.intercalate ", " items ++ "]"

/-- `Name { first: a, second: b }`, the layout of a record. -/
def record (name : String) (fields : List (String × String)) : String :=
  name ++ " \x7b "
    ++ String.intercalate ", " (fields.map fun (field, value) => field ++ ": " ++ value) ++ " \x7d"

/-- `Name(a)`, the layout of a tagged value. -/
def tagged (name payload : String) : String :=
  name ++ "(" ++ payload ++ ")"

end ValueChannels.Text
