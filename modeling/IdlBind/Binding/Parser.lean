import IdlBind.Binding.Statement
import IdlBind.Token.Stream

set_option autoImplicit false

/-! # Reading binding descriptions

A description is a sequence of statements, at most one of which is a binding block. -/

namespace IdlBind.Binding

open TokenParser

/-- Fails with an error. -/
def failWith {α : Type} (e : ParseError) : TokenParser α := fun _ => .error e

/-- Takes a string, if one is next. -/
def acceptString : TokenParser (Option String) := fun ts =>
  match ts with
  | ⟨.string text, _⟩ :: rest => .ok (some text, rest)
  | _ => .ok (none, ts)

/-- Takes a code block. -/
def expectCode : TokenParser String := fun ts =>
  match ts with
  | ⟨.codeBlock code, _⟩ :: rest => .ok (code, rest)
  | _ => .error (unexpectedError .codeBlock ts)

/-- Takes an identifier, with its position. -/
def expectKeywordAt : TokenParser (String × Position) := fun ts =>
  match ts with
  | ⟨.ident name, position⟩ :: rest => .ok ((name, position), rest)
  | _ => .error (unexpectedError .identifier ts)

/-! ## The binding block -/

/-- Reads an entry behind its keyword, up to the semicolon. -/
def entryBody (keyword : String) (position : Position) : TokenParser Entry := do
  let entry ← match keyword with
    | "type" => .type <$> expectIdent
    | "interface" => .interface <$> expectIdent
    | "private" => do
      let ctype ← expectString
      let name ← expectIdent
      pure (.privateField ctype name)
    | other => failWith (.statement (.unknownEntry other) position)
  expectPunct ';'
  pure entry

/-- Reads an entry; `none` at the closing brace, which is taken. -/
def entry : TokenParser (Option Entry) := do
  if ← acceptPunct '}' then pure none
  else
    let (keyword, position) ← expectKeywordAt
    let e ← entryBody keyword position
    pure (some e)

/-- Reads a binding block behind its keyword. A semicolon may follow. -/
def block : TokenParser Statement := do
  let name ← expectIdent
  expectPunct '{'
  let entries ← Parser.many entry
  let _ ← acceptPunct ';'
  pure (.block name entries)

/-! ## Statements -/

/-- Reads a statement other than a binding block, behind its keyword. -/
def statementBody (keyword : String) (position : Position) : TokenParser Statement := do
  match keyword with
  | "webidlfile" =>
    let reference ← expectString
    expectPunct ';'
    pure (.webIdlFile reference)
  | "hdrcomment" =>
    let first ← expectString
    let others ← Parser.many acceptString
    expectPunct ';'
    pure (.headerComment first others)
  | "preamble" =>
    let code ← expectCode
    let _ ← acceptPunct ';'
    pure (.preamble code)
  | other => failWith (.statement (.unknownStatement other) position)

/-- Reads a statement other than a binding block; `none` at a binding block and at the end. -/
def plainStatement : TokenParser (Option Statement) := do
  if (← atEnd) || (← checkIdent "binding") then pure none
  else
    let (keyword, position) ← expectKeywordAt
    let s ← statementBody keyword position
    pure (some s)

/-- Reads a whole description: statements with at most one binding block among them. -/
def description : TokenParser (List Statement) := do
  let before ← Parser.many plainStatement
  if ← atEnd then pure before
  else
    skip
    let bound ← block
    let behind ← Parser.many plainStatement
    match ← peek? with
    | none => pure (before ++ bound :: behind)
    | some t => failWith (.statement .secondBindingBlock t.position)

/-- The trees of the statements of a binding description. -/
def parse (source : String) : Except ParseError (List Node) :=
  (parseText description source).map fun statements => statements.map Statement.toNode

end IdlBind.Binding
