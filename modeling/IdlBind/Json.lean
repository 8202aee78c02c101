set_option autoImplicit false

/-! # JSON values and their indented text -/

namespace IdlBind

/-- A JSON value. A number is `mantissa · 10 ^ -places`; an object is the list of its members in
    order. -/
inductive Json where
  | null
  | bool (value : Bool)
  | number (mantissa : Int) (places : Nat)
  | string (text : String)
  | array (items : List Json)
  | object (members : List (String × Json))
  deriving Repr, Inhabited

namespace Json

/-- An integer as a JSON value. -/
def int (value : Int) : Json := .number value 0

/-- The value of the first member with a key. -/
def field? (key : String) (members : List (String × Json)) : Option Json :=
  (members.find? (·.1 = key)).map (·.2)

/-! ## Text -/

/-- The four hexadecimal digits of a control character. -/
def controlDigits (c : Char) : List Char :=
  let digits := Nat.toDigits 16 c.toNat
  List.replicate (4 - digits.length) '0' ++ digits

/-- What stands for one character between the quotes: escapes for the quote, the backslash and the
    control characters below the space. -/
def escapedChar (c : Char) : List Char :=
  if c == '"' then ['\\', '"']
  else if c == '\\' then ['\\', '\\']
  else if c == '\n' then ['\\', 'n']
  else if c == '\r' then ['\\', 'r']
  else if c == '\t' then ['\\', 't']
  else if c == '\x08' then ['\\', 'b']
  else if c == '\x0c' then ['\\', 'f']
  else if c.toNat < 0x20 then '\\' :: 'u' :: controlDigits c
  else [c]

/-- A text between double quotes. -/
def stringText (text : String) : String :=
  String.ofList ('"' :: text.toList.flatMap escapedChar ++ ['"'])

/-- The text of a number: all its places are written. -/
def numberText (mantissa : Int) (places : Nat) : String :=
  let digits := Nat.toDigits 10 mantissa.natAbs
  let padded := List.replicate (places + 1 - digits.length) '0' ++ digits
  let whole := padded.take (padded.length - places)
  let unsigned := if places = 0 then whole
    else whole ++ '.' :: padded.drop (padded.length - places)
  String.ofList (if mantissa < 0 then '-' :: unsigned else unsigned)

/-- A new line with two spaces for each level. -/
def newLine (depth : Nat) : String := "\n" ++ String.ofList (List.replicate (2 * depth) ' ')

mutual

/-- The text of a value, indented by two spaces a level. Empty arrays and objects take no lines of
    their own. -/
def indented (depth : Nat) : Json → String
  | .null => "null"
  | .bool true => "true"
  | .bool false => "false"
  | .number mantissa places => numberText mantissa places
  | .string text => stringText text
  | .array items =>
    if items.isEmpty then "[]"
    else "[" ++ ",".intercalate (indentedItems (depth + 1) items) ++ newLine depth ++ "]"
  | .object members =>
    if members.isEmpty then "\x7b\x7d"
    else "\x7b" ++ ",".intercalate (indentedMembers (depth + 1) members) ++ newLine depth ++ "\x7d"

/-- The items of an array, each on lines of its own. -/
def indentedItems (depth : Nat) : List Json → List String
  | [] => []
  | item :: items => (newLine depth ++ indented depth item) :: indentedItems depth items

/-- The members of an object, each on lines of its own. -/
def indentedMembers (depth : Nat) : List (String × Json) → List String
  | [] => []
  | (key, value) :: members =>
    (newLine depth ++ stringText key ++ ": " ++ indented depth value) ::
      indentedMembers depth members

end

/-- The indented text of a value. -/
def pretty (value : Json) : String := indented 0 value

end Json

end IdlBind
