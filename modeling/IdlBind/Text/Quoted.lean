import IdlBind.Text.Printable
import IdlBind.Text.Extending

set_option autoImplicit false

/-! # Quoted text

Text between double quotes, on one line: outlines of trees and messages show text and paths this
way. The quote, the backslash, line feed, carriage return, tab and NUL have two-character escapes;
every other character that is unprintable or extends the one before it is written by its code
point, as in `\u{301}`. -/

namespace IdlBind.Text

/-- Hexadecimal digits of `n`, lower case, at least one. -/
def hexDigits (n : Nat) : List Char := Nat.toDigits 16 n

/-- What stands for one character between the quotes. -/
def quotedChar (c : Char) : List Char :=
  if c == '"' then ['\\', '"']
  else if c == '\\' then ['\\', '\\']
  else if c == '\n' then ['\\', 'n']
  else if c == '\r' then ['\\', 'r']
  else if c == '\t' then ['\\', 't']
  else if c == '\x00' then ['\\', '0']
  else if extendsGrapheme c || !isPrintable c then
    ['\\', 'u', '{'] ++ hexDigits c.toNat ++ ['}']
  else [c]

/-- The text between double quotes, every character escaped as `quotedChar` says. -/
def quoted (text : String) : String :=
  String.ofList ('"' :: text.toList.flatMap quotedChar ++ ['"'])

/-- The texts in brackets, each quoted, separated by a comma and a space. -/
def quotedList (texts : List String) : String :=
  "[" ++ ", ".intercalate (texts.map quoted) ++ "]"

end IdlBind.Text
