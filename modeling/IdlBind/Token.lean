import IdlBind.Number.Shortest
import IdlBind.Position

set_option autoImplicit false

/-! # Tokens

WebIDL and binding descriptions have the same tokens. Only binding descriptions use code blocks,
and only WebIDL uses numbers and the ellipsis. -/

namespace IdlBind

/-- What a token is. The text of a string is without quotes and escapes, that of a code block
    without the marks around it. -/
inductive TokenKind where
  | ident (name : String)
  | string (text : String)
  | integer (value : Int64)
  | float (value : Number.Binary64)
  | codeBlock (code : String)
  | ellipsis
  | punct (c : Char)
  | eof
  deriving DecidableEq, Repr, Inhabited

/-- How messages name a token. -/
def TokenKind.describe : TokenKind → String
  | .ident name => "identifier `" ++ name ++ "`"
  | .string text => "string \"" ++ text ++ "\""
  | .integer value => "integer " ++ toString value.toInt
  | .float value => "float " ++ value.text
  | .codeBlock _ => "code block"
  | .ellipsis => "'...'"
  | .punct c => "'" ++ c.toString ++ "'"
  | .eof => "end of file"

/-- A token and the position of its first character. -/
structure Token where
  kind : TokenKind
  position : Position
  deriving DecidableEq, Repr, Inhabited

end IdlBind
