import IdlBind.Parser
import IdlBind.Toml.Scalar

set_option autoImplicit false

/-! # Reading TOML

A document is read line by line into statements, from which the table is built. Only whether a text
is a document matters, so that there is a single error. -/

namespace IdlBind.Toml

/-- The text is no document. -/
inductive Malformed where
  | malformed
  deriving DecidableEq, Repr

/-- A parser over characters. -/
abbrev CharParser : Type → Type := Parser Char Malformed

namespace CharParser

variable {α : Type}

/-- Fails. -/
def fail : CharParser α := fun _ => .error .malformed

/-- The value, if there is one. -/
def require (value : Option α) : CharParser α :=
  match value with
  | some a => pure a
  | none => fail

/-- The next character, which stays. -/
def peek? : CharParser (Option Char) := fun cs => .ok (cs.head?, cs)

/-- Takes the characters in front that satisfy `p`. -/
def takeWhile (p : Char → Bool) : CharParser (List Char) :=
  fun cs => .ok (cs.takeWhile p, cs.dropWhile p)

/-- Takes a text if it is in front. -/
def accept (text : String) : CharParser Bool := fun cs =>
  if text.toList.isPrefixOf cs then .ok (true, cs.drop text.length) else .ok (false, cs)

/-- Takes a text. -/
def expect (text : String) : CharParser Unit := do
  unless ← accept text do fail

/-- Takes a character. -/
def anyChar : CharParser Char := fun cs =>
  match cs with
  | c :: rest => .ok (c, rest)
  | [] => .error .malformed

end CharParser

open CharParser

/-! ## Blanks and comments -/

/-- A space or a tab. -/
def isBlank (c : Char) : Bool := c = ' ' || c = '\t'

/-- A character that may stand in a comment or a string: a tab, or no control character. -/
def isText (c : Char) : Bool := c = '\t' || (0x20 ≤ c.toNat && c.toNat ≠ 0x7f)

/-- Takes spaces and tabs. -/
def blanks : CharParser Unit := do
  let _ ← takeWhile isBlank

/-- Takes a line end, if it is next. -/
def acceptNewline : CharParser Bool := do
  if ← accept "\n" then pure true else accept "\r\n"

/-- Takes a comment up to the end of its line, if one is next. -/
def optionalComment : CharParser Unit := do
  if ← accept "#" then
    let _ ← takeWhile isText

/-- Takes blanks, comments and line ends. -/
def gap : CharParser Unit := do
  let _ ← Parser.many do
    blanks
    optionalComment
    if ← acceptNewline then pure (some ()) else pure none

/-! ## Strings -/

/-- Takes hexadecimal digits of a code point, which must be one of a character. -/
def codePoint (count : Nat) : CharParser Char := do
  let digits ← fun cs => .ok (cs.take count, cs.drop count)
  let n := Number.digitsValue 16 digits
  if digits.length = count && digits.all Number.isHexDigit && Nat.isValidChar n then
    pure (Char.ofNat n)
  else fail

/-- Reads an escape behind its backslash. -/
def escape : CharParser Char := do
  match ← anyChar with
  | 'b' => pure '\x08'
  | 't' => pure '\t'
  | 'n' => pure '\n'
  | 'f' => pure '\x0c'
  | 'r' => pure '\r'
  | '"' => pure '"'
  | '\\' => pure '\\'
  | 'u' => codePoint 4
  | 'U' => codePoint 8
  | _ => fail

/-- Reads a string of one line behind its opening quote. -/
def lineString (quote : String) (escapes : Bool) : CharParser String := do
  let chars ← Parser.many do
    if ← accept quote then pure none
    else
      let c ← anyChar
      if c = '\\' && escapes then some <$> escape
      else if isText c then pure (some c)
      else fail
  pure (String.ofList chars)

/-- Takes a backslash at the end of a line with all blanks and line ends behind it, if that is what
    is next. -/
def acceptLineFold : CharParser Bool := fun cs =>
  match cs with
  | '\\' :: rest =>
    let rest := rest.dropWhile isBlank
    if "\n".toList.isPrefixOf rest || "\r\n".toList.isPrefixOf rest then
      .ok (true, rest.dropWhile fun c => isBlank c || c = '\n' || c = '\r')
    else .ok (false, cs)
  | _ => .ok (false, cs)

/-- Takes three closing quotes, if they are next. Up to two more in front of them belong to the
    string and stay; still more are an error. -/
def acceptClosing (quote : Char) : CharParser Bool := fun cs =>
  let count := (cs.takeWhile (· = quote)).length
  if 5 < count then .error .malformed
  else if count = 3 then .ok (true, cs.drop 3)
  else .ok (false, cs)

/-- Reads a string of several lines behind its opening quotes. A line end right behind them counts
    for nothing. -/
def blockString (quote : Char) (escapes : Bool) : CharParser String := do
  let _ ← acceptNewline
  let parts ← Parser.many do
    if ← acceptClosing quote then pure none
    else if ← (if escapes then acceptLineFold else pure false) then pure (some [])
    else if ← accept "\r\n" then pure (some ['\n'])
    else
      let c ← anyChar
      if c = '\\' && escapes then
        let e ← escape
        pure (some [e])
      else if isText c || c = '\n' then pure (some [c])
      else fail
  pure (String.ofList parts.flatten)

/-- Reads a string of any form; `none` if no quote is next. -/
def string? : CharParser (Option String) := do
  if ← accept "\"\"\"" then some <$> blockString '"' true
  else if ← accept "\"" then some <$> lineString "\"" true
  else if ← accept "\x27\x27\x27" then some <$> blockString '\x27' false
  else if ← accept "\x27" then some <$> lineString "\x27" false
  else pure none

/-! ## Keys -/

/-- Reads a part of a key: quoted on one line, or letters, digits, underscores and hyphens. -/
def simpleKey : CharParser String := do
  if ← accept "\"" then lineString "\"" true
  else if ← accept "\x27" then lineString "\x27" false
  else
    let chars ← takeWhile fun c => c.isAlphanum || c = '_' || c = '-'
    if chars.isEmpty then fail else pure (String.ofList chars)

/-- Reads a key: the parts in front of the last, and the last. Blanks behind it are taken. -/
def key : CharParser (List String × String) := do
  let first ← simpleKey
  let others ← Parser.many do
    blanks
    if ← accept "." then
      blanks
      let part ← simpleKey
      pure (some part)
    else pure none
  let parts := first :: others
  pure (parts.dropLast, parts.getLast?.getD first)

/-! ## Values -/

/-- A character of a number, time or boolean. -/
def isScalarChar (c : Char) : Bool :=
  c.isAlphanum || c = '_' || c = '-' || c = '+' || c = '.' || c = ':'

/-- Reads a number, time or boolean. A time may have a space between date and time of day. -/
def scalar : CharParser Value := do
  let front ← takeWhile isScalarChar
  let isSplit : Bool ← fun cs =>
    .ok (afterDate? front = some [] && cs.head? = some ' ' && cs.tail.head?.any Char.isDigit, cs)
  if isSplit then
    let _ ← accept " "
    let back ← takeWhile isScalarChar
    require (scalar? (front ++ ' ' :: back))
  else require (scalar? front)

/-- Reads an array behind its opening bracket, given how to read a value. Blanks, comments and line
    ends may stand around the values, and a comma behind the last. -/
def arrayBody (value : CharParser Value) : CharParser Value := do
  gap
  if ← accept "]" then pure (.array [])
  else
    let first ← value
    let others ← Parser.many do
      gap
      if ← accept "]" then pure none
      else
        expect ","
        gap
        if ← accept "]" then pure none
        else
          let other ← value
          pure (some other)
    pure (.array (first :: others))

/-- Reads a key, an equals sign and a value. -/
def member (value : CharParser Value) : CharParser (List String × String × Value) := do
  let (path, last) ← key
  blanks
  expect "="
  blanks
  let v ← value
  pure (path, last, v)

/-- Reads an inline table behind its opening brace, given how to read a value. -/
def inlineBody (value : CharParser Value) : CharParser Value := do
  blanks
  if ← accept "\x7d" then pure (.table [])
  else
    let first ← member value
    let others ← Parser.many do
      blanks
      if ← accept "\x7d" then pure none
      else
        expect ","
        blanks
        let other ← member value
        pure (some other)
    let table ← require ((first :: others).foldlM addInline .empty)
    pure table.toValue

/-- Reads a value, given how to read the values inside it. -/
def valueBody (value : CharParser Value) : CharParser Value := do
  match ← string? with
  | some text => pure (.string text)
  | none =>
    if ← accept "[" then arrayBody value
    else if ← accept "\x7b" then inlineBody value
    else scalar

/-- Reads a value. -/
def value : CharParser Value := Parser.recursive .malformed valueBody

/-! ## Documents -/

/-- Reads the statement on a line, if there is one. -/
def lineStatement : CharParser (Option Statement) := do
  if ← accept "[[" then
    blanks
    let (path, last) ← key
    blanks
    expect "]]"
    pure (some (.element path last))
  else if ← accept "[" then
    blanks
    let (path, last) ← key
    blanks
    expect "]"
    pure (some (.table path last))
  else
    match ← peek? with
    | none | some '#' | some '\n' | some '\r' => pure none
    | some _ =>
      let (path, last, v) ← member value
      pure (some (.value path last v))

/-- Reads a line with its end; `none` at the end of the document. -/
def line : CharParser (Option (Option Statement)) := do
  match ← peek? with
  | none => pure none
  | some _ =>
    blanks
    let statement ← lineStatement
    blanks
    optionalComment
    let ended ← acceptNewline
    match ← peek? with
    | none => pure (some statement)
    | some _ => if ended then pure (some statement) else fail

/-- The members of the document that a text is. A byte order mark in front counts for nothing. -/
def parse? (text : String) : Option (List (String × Value)) := do
  let chars := match text.toList with
    | '\ufeff' :: rest => rest
    | cs => cs
  match Parser.many line chars with
  | .ok (lines, []) => (build (lines.filterMap id)).map fun t => Item.membersToValues t.members
  | _ => none

end IdlBind.Toml
