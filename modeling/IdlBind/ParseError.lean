import IdlBind.Token

set_option autoImplicit false

/-! # Why a text cannot be read -/

namespace IdlBind

/-- Why characters form no token. -/
inductive LexicalError where
  | unterminatedComment
  | unterminatedString
  | unterminatedCodeBlock
  | incompleteEllipsis
  | malformedHex (cause : Number.IntegerError)
  | malformedInteger (text : String) (cause : Number.IntegerError)
  | malformedFloat (text : String)
  | unexpectedCharacter (c : Char)
  deriving DecidableEq, Repr

/-- The wording of a lexical error. -/
def LexicalError.message : LexicalError → String
  | .unterminatedComment => "unterminated comment"
  | .unterminatedString => "unterminated string literal"
  | .unterminatedCodeBlock => "unterminated code block, expected '%\x7d'"
  | .incompleteEllipsis => "expected '...'"
  | .malformedHex cause => "invalid hex literal: " ++ cause.message
  | .malformedInteger text cause => "invalid integer literal '" ++ text ++ "': " ++ cause.message
  | .malformedFloat text => "invalid float literal '" ++ text ++ "': invalid float literal"
  | .unexpectedCharacter c => "unexpected character '" ++ c.toString ++ "'"

/-- A statement of a binding description that breaks a rule beyond the order of tokens. -/
inductive StatementError where
  | secondBindingBlock
  | unknownStatement (keyword : String)
  | unknownEntry (keyword : String)
  deriving DecidableEq, Repr

/-- The wording of a statement error. -/
def StatementError.message : StatementError → String
  | .secondBindingBlock => "only one binding block is allowed"
  | .unknownStatement keyword => "unknown statement `" ++ keyword ++ "`"
  | .unknownEntry keyword => "unknown binding entry `" ++ keyword ++ "`"

/-- What a reader wanted to see next. -/
inductive Expectation where
  | punct (c : Char)
  | keyword (name : String)
  | identifier
  | stringLiteral
  | codeBlock
  | defaultValue
  | partialDefinition
  | other (text : String)
  deriving DecidableEq, Repr

/-- How messages name what was wanted. -/
def Expectation.describe : Expectation → String
  | .punct c => "'" ++ c.toString ++ "'"
  | .keyword name => "`" ++ name ++ "`"
  | .identifier => "identifier"
  | .stringLiteral => "string literal"
  | .codeBlock => "'%\x7b' code block"
  | .defaultValue => "default value"
  | .partialDefinition => "`interface` or `dictionary` after `partial`"
  | .other text => text

/-- Why a text of either language cannot be read. The end of the file has no position. -/
inductive ParseError where
  | lexical (cause : LexicalError) (position : Position)
  | statement (cause : StatementError) (position : Position)
  | unexpectedToken (expected : Expectation) (found : TokenKind) (position : Position)
  | unexpectedEof (expected : Expectation)
  deriving DecidableEq, Repr

namespace ParseError

/-- Where the error was met. -/
def position? : ParseError → Option Position
  | .lexical _ p => some p
  | .statement _ p => some p
  | .unexpectedToken _ _ p => some p
  | .unexpectedEof _ => none

/-- The wording of a parse error. -/
def message : ParseError → String
  | .lexical cause p => "Lexer error at " ++ p.text ++ ": " ++ cause.message
  | .statement cause p => "Syntax error at " ++ p.text ++ ": " ++ cause.message
  | .unexpectedToken expected found p =>
    "Unexpected token at " ++ p.text ++ ": expected " ++ expected.describe ++
      ", found " ++ found.describe
  | .unexpectedEof expected => "Unexpected end of file: expected " ++ expected.describe

end ParseError

end IdlBind
