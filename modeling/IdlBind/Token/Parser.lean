import IdlBind.Parser
import IdlBind.ParseError

set_option autoImplicit false

/-! # Parsers over tokens

The steps from which the readers of both languages are built. They work on the tokens in front of
the end of the file: the empty list is the end of the file. -/

namespace IdlBind

/-- Is this the character `c` as a token of its own? -/
def Token.isPunct (c : Char) (t : Token) : Bool := t.kind == .punct c

/-- Is this the identifier `name`? -/
def Token.isIdent (name : String) (t : Token) : Bool := t.kind == .ident name

/-- A parser over tokens. -/
abbrev TokenParser : Type → Type := Parser Token ParseError

namespace TokenParser

variable {α : Type}

/-! ## Looking ahead -/

/-- The error of a reader that wanted something else than the next token. -/
def unexpectedError (expected : Expectation) : List Token → ParseError
  | [] => .unexpectedEof expected
  | t :: _ => .unexpectedToken expected t.kind t.position

/-- Fails because the next token is not what was expected. -/
def unexpected (expected : Expectation) : TokenParser α :=
  fun ts => .error (unexpectedError expected ts)

/-- The next token, which stays. -/
def peek? : TokenParser (Option Token) := fun ts => .ok (ts.head?, ts)

/-- The kind of the next token, which stays. -/
def peekKind? : TokenParser (Option TokenKind) := fun ts => .ok (ts.head?.map (·.kind), ts)

/-- Is there no token left? -/
def atEnd : TokenParser Bool := fun ts => .ok (ts.isEmpty, ts)

/-- Is the next token the character `c`? -/
def checkPunct (c : Char) : TokenParser Bool := fun ts => .ok (ts.head?.any (·.isPunct c), ts)

/-- Is the next token the identifier `name`? -/
def checkIdent (name : String) : TokenParser Bool := fun ts =>
  .ok (ts.head?.any (·.isIdent name), ts)

/-- Is the token after the next one the character `c`? -/
def checkSecondPunct (c : Char) : TokenParser Bool :=
  fun ts => .ok (ts.tail.head?.any (·.isPunct c), ts)

/-! ## Taking tokens -/

/-- Takes the next token, whatever it is; nothing at the end. -/
def skip : TokenParser Unit := fun ts => .ok ((), ts.tail)

/-- Takes the next token if it is the character `c`. -/
def acceptPunct (c : Char) : TokenParser Bool := fun ts =>
  match ts with
  | t :: rest => if t.isPunct c then .ok (true, rest) else .ok (false, ts)
  | [] => .ok (false, [])

/-- Takes the next token if it is the identifier `name`. -/
def acceptIdent (name : String) : TokenParser Bool := fun ts =>
  match ts with
  | t :: rest => if t.isIdent name then .ok (true, rest) else .ok (false, ts)
  | [] => .ok (false, [])

/-- Takes the character `c`. -/
def expectPunct (c : Char) : TokenParser Unit := do
  unless ← acceptPunct c do unexpected (.punct c)

/-- Takes the identifier `name`. -/
def expectKeyword (name : String) : TokenParser Unit := do
  unless ← acceptIdent name do unexpected (.keyword name)

/-- Takes an identifier. -/
def expectIdent : TokenParser String := fun ts =>
  match ts with
  | ⟨.ident name, _⟩ :: rest => .ok (name, rest)
  | _ => .error (unexpectedError .identifier ts)

/-- Takes a string. -/
def expectString : TokenParser String := fun ts =>
  match ts with
  | ⟨.string text, _⟩ :: rest => .ok (text, rest)
  | _ => .error (unexpectedError .stringLiteral ts)

/-! ## Lists -/

/-- Reads an item behind a comma, if a comma is next. -/
def commaItem (item : TokenParser α) : TokenParser (Option α) := do
  if ← acceptPunct ',' then some <$> item else pure none

/-- Reads one or more items with commas between them: the first and the others. -/
def separated (item : TokenParser α) : TokenParser (α × List α) := do
  let first ← item
  let others ← Parser.many (commaItem item)
  pure (first, others)

/-! ## Skipping -/

/-- What follows the bracket that closes `depth` open ones. -/
def closeGroup (opening closing : Char) : Nat → List Token → Except ParseError (List Token)
  | 0, ts => .ok ts
  | _ + 1, [] => .error (.unexpectedEof (.punct closing))
  | depth + 1, t :: ts =>
    if t.isPunct opening then closeGroup opening closing (depth + 2) ts
    else if t.isPunct closing then closeGroup opening closing depth ts
    else closeGroup opening closing (depth + 1) ts

/-- Takes a group in balanced brackets, which starts with the next token. Only the brackets of this
    kind count. -/
def skipGroup (opening closing : Char) : TokenParser Unit := do
  expectPunct opening
  fun ts => (closeGroup opening closing 1 ts).map fun rest => ((), rest)

/-- Does the token open a bracket of any kind? -/
def opensBracket (t : Token) : Bool := t.isPunct '{' || t.isPunct '(' || t.isPunct '['

/-- Does the token close a bracket of any kind? -/
def closesBracket (t : Token) : Bool := t.isPunct '}' || t.isPunct ')' || t.isPunct ']'

/-- What follows the first semicolon outside brackets, of which `depth` are open. A closing bracket
    too many is ignored. -/
def closeStatement : Nat → List Token → Except ParseError (List Token)
  | _, [] => .error (.unexpectedEof (.punct ';'))
  | depth, t :: ts =>
    if opensBracket t then closeStatement (depth + 1) ts
    else if closesBracket t then closeStatement (depth - 1) ts
    else if t.isPunct ';' && depth == 0 then .ok ts
    else closeStatement depth ts

/-- Takes the tokens up to and including the next semicolon outside brackets. -/
def skipStatement : TokenParser Unit :=
  fun ts => (closeStatement 0 ts).map fun rest => ((), rest)

end TokenParser

end IdlBind
