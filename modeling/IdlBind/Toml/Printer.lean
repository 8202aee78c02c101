import IdlBind.Text.Quoted

set_option autoImplicit false

/-! # Writing TOML

One line for each key. Strings stand between double quotes; an array with more than one item takes a
line for each. -/

namespace IdlBind.Toml

/-- Four hexadecimal digits of a code point. -/
def fourDigits (c : Char) : List Char :=
  let digits := Text.hexDigits c.toNat
  List.replicate (4 - digits.length) '0' ++ digits

/-- What stands for one character of a string. -/
def stringChar (c : Char) : List Char :=
  if c == '"' then ['\\', '"']
  else if c == '\\' then ['\\', '\\']
  else if c == '\n' then ['\\', 'n']
  else if c == '\r' then ['\\', 'r']
  else if c == '\t' then ['\\', 't']
  else if c.toNat < 0x20 || c.toNat == 0x7f then ['\\', 'u'] ++ fourDigits c
  else [c]

/-- A string between double quotes. -/
def stringText (text : String) : String :=
  String.ofList ('"' :: text.toList.flatMap stringChar ++ ['"'])

/-- A truth value. -/
def booleanText (value : Bool) : String := if value then "true" else "false"

/-- An array of items that are already written. -/
def arrayText : List String → String
  | [] => "[]"
  | [item] => "[" ++ item ++ "]"
  | items => "[\n" ++ String.join (items.map fun item => "    " ++ item ++ ",\n") ++ "]"

/-- The line of a key, for a value that is already written. -/
def keyLine (key value : String) : String := key ++ " = " ++ value ++ "\n"

end IdlBind.Toml
