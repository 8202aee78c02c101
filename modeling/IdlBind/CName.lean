set_option autoImplicit false

/-! # Names in C

WebIDL names become parts of C names. `escape` keeps different names different; a symbol joins
escaped parts with underscores. `identifier` only replaces what C does not allow. -/

namespace IdlBind.CName

/-- The UTF-16 units of a character. -/
def utf16Units (c : Char) : List Nat :=
  let n := c.toNat
  if n < 0x10000 then [n]
  else [0xd800 + (n - 0x10000) / 0x400, 0xdc00 + (n - 0x10000) % 0x400]

/-- Four hexadecimal digits of a unit. -/
def unitDigits (n : Nat) : List Char :=
  let digits := Nat.toDigits 16 n
  List.replicate (4 - digits.length) '0' ++ digits

/-- The escaped form of a character: an ASCII letter or digit stands for itself, the underscore is
    `_1`, and of every other character each unit is `_0` with four hexadecimal digits. -/
def escapeChar (c : Char) : List Char :=
  if c.isAlphanum then [c]
  else if c = '_' then ['_', '1']
  else (utf16Units c).flatMap fun unit => '_' :: '0' :: unitDigits unit

/-- A name with every character escaped. -/
def escape (name : String) : String := String.ofList (name.toList.flatMap escapeChar)

/-- The symbol that starts with `start` and goes on with the escaped parts, underscores between. -/
def symbol (start : String) (parts : List String) : String :=
  parts.foldl (fun text part => text ++ "_" ++ escape part) start

/-- A name with underscores for what is neither an ASCII letter or digit nor an underscore. -/
def identifier (name : String) : String :=
  name.map fun c => if c.isAlphanum || c == '_' then c else '_'

/-- A declaration of a name with a type. A space comes between the two unless the type ends in one
    or in an asterisk. -/
def declaration (ctype name : String) : String :=
  match ctype.toList.getLast? with
  | some '*' | some ' ' => ctype ++ name
  | _ => ctype ++ " " ++ name

end IdlBind.CName
