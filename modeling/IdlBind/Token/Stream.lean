import IdlBind.Token.Lexer
import IdlBind.Token.Parser

set_option autoImplicit false

/-! # Streams of tokens

A stream is the tokens still to be read and the position of the end of the file. Reading never goes
beyond the end: there the stream shows the end of the file, as often as one looks. -/

namespace IdlBind

/-- The tokens in front of the end of the file, and where that is. -/
structure TokenStream where
  ahead : List Token
  finish : Position
  deriving DecidableEq, Repr

namespace TokenStream

/-- The stream of a list of tokens that ends with the end of the file. -/
def ofTokens (tokens : List Token) : TokenStream :=
  ⟨tokens.dropLast, (tokens.getLast?.map (·.position)).getD .start⟩

/-- The stream of a text. -/
def ofString (source : String) : Except ParseError TokenStream :=
  (tokenize source).map ofTokens

/-- The token `offset` places ahead. -/
def peek (s : TokenStream) (offset : Nat) : Token := s.ahead[offset]?.getD ⟨.eof, s.finish⟩

/-- The next token. -/
def current (s : TokenStream) : Token := s.peek 0

/-- The position of the next token. -/
def position (s : TokenStream) : Position := s.current.position

/-- Is the end of the file next? -/
def atEnd (s : TokenStream) : Bool := s.ahead.isEmpty

/-- The stream behind the next token; at the end it stays where it is. -/
def advance (s : TokenStream) : TokenStream := { s with ahead := s.ahead.tail }

/-- Runs a single step. A step that fails leaves the stream at the end if the end is what it met,
    and where it was otherwise. -/
def step {α : Type} (s : TokenStream) (p : TokenParser α) : Except ParseError α × TokenStream :=
  match p s.ahead with
  | .ok (a, rest) => (.ok a, { s with ahead := rest })
  | .error (.unexpectedEof expected) =>
    (.error (.unexpectedEof expected), { s with ahead := [] })
  | .error e => (.error e, s)

end TokenStream

/-- Reads a whole text with a parser over its tokens. -/
def parseText {α : Type} (p : TokenParser α) (source : String) : Except ParseError α := do
  let stream ← TokenStream.ofString source
  let (a, _) ← p stream.ahead
  pure a

end IdlBind
