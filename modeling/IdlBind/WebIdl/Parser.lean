import IdlBind.Token.Parser
import IdlBind.WebIdl.Definition

set_option autoImplicit false

/-! # Reading WebIDL

Interfaces and dictionaries are read; everything else at the top level is skipped to its semicolon.
Extended attributes are skipped wherever they may stand. -/

namespace IdlBind.WebIdl

open TokenParser

/-! ## Skipped parts -/

/-- Skips a group in square brackets, if one is next. -/
def attributeGroup : TokenParser (Option Unit) := do
  if ← checkPunct '[' then
    skipGroup '[' ']'
    pure (some ())
  else pure none

/-- Skips groups in square brackets. -/
def skipAttributes : TokenParser Unit := do
  let _ ← Parser.many attributeGroup

/-- Skips a default value: a group in square brackets or braces, a minus with an identifier, or one
    token. -/
def skipDefault : TokenParser Unit := do
  if ← checkPunct '[' then skipGroup '[' ']'
  else if ← checkPunct '{' then skipGroup '{' '}'
  else if ← acceptPunct '-' then
    let _ ← expectIdent
  else if ← atEnd then unexpected .defaultValue
  else skip

/-- The keywords of members that are accepted but carry nothing from which code is generated. -/
def skippedMembers : List String :=
  ["const", "serializer", "iterable", "legacyiterable", "maplike", "setlike", "async"]

/-- Is the next token one of the identifiers? -/
def checkAnyIdent (names : List String) : TokenParser Bool :=
  fun ts => .ok (names.any fun name => ts.head?.any (·.isIdent name), ts)

/-! ## Types -/

/-- The basic type with a name. The name `long` also starts `long long`. -/
def BasicType.ofName? (name : String) : Option BasicType :=
  match name with
  | "boolean" => some .bool
  | "byte" => some .byte
  | "octet" => some .octet
  | "float" => some .float
  | "double" => some .double
  | "short" => some .short
  | "long" => some .long
  | "DOMString" | "ByteString" | "USVString" | "CSSOMString" => some .string
  | "object" => some .object
  | "Date" => some .date
  | "void" | "undefined" => some .void
  | "any" => some .any
  | _ => none

/-- Takes an empty pair of square brackets, if one is next. -/
def emptyBrackets : TokenParser (Option Unit) := do
  if (← checkPunct '[') && (← checkSecondPunct ']') then
    skip
    skip
    pure (some ())
  else pure none

/-- Reads what follows a type: an optional question mark, whose presence is the result, and empty
    pairs of square brackets. -/
def typeSuffix : TokenParser Bool := do
  let nullable ← acceptPunct '?'
  let _ ← Parser.many emptyBrackets
  pure nullable

/-- Reads one or more types between angle brackets. -/
def typeParameters (typeExpr : TokenParser TypeExpr) : TokenParser (TypeExpr × List TypeExpr) := do
  expectPunct '<'
  let types ← separated typeExpr
  expectPunct '>'
  pure types

/-- Reads the parameters of a type defined by the user, if there are any. -/
def optionalParameters (typeExpr : TokenParser TypeExpr) : TokenParser (List TypeExpr) := do
  if ← checkPunct '<' then
    let (first, others) ← typeParameters typeExpr
    pure (first :: others)
  else pure []

/-- Takes the second word of `long long` behind the first. -/
def acceptLong (base : BasicType) : TokenParser BasicType := do
  if base = .long then
    if ← acceptIdent "long" then pure .longLong else pure .long
  else pure base

/-- Reads a type behind its name, given how to read the types inside it. -/
def typeBehind (typeExpr : TokenParser TypeExpr) (unsigned unrestricted : Bool) (name : String) :
    TokenParser TypeExpr := do
  match BasicType.ofName? name with
  | some base =>
    let base ← acceptLong base
    let nullable ← typeSuffix
    pure (.basic base ⟨unsigned, unrestricted, nullable⟩)
  | none =>
    if name = "sequence" || name = "FrozenArray" then
      let (first, others) ← typeParameters typeExpr
      let nullable ← typeSuffix
      pure (.sequence first others ⟨unsigned, unrestricted, nullable⟩)
    else
      let parameters ← optionalParameters typeExpr
      let nullable ← typeSuffix
      pure (.named name parameters ⟨unsigned, unrestricted, nullable⟩)

/-- Reads a type, given how to read the types inside it. A union is read as `any`. -/
def typeBody (typeExpr : TokenParser TypeExpr) : TokenParser TypeExpr := do
  skipAttributes
  if ← checkPunct '(' then
    skipGroup '(' ')'
    let nullable ← typeSuffix
    pure (.basic .any ⟨false, false, nullable⟩)
  else
    let unsigned ← acceptIdent "unsigned"
    let unrestricted ← acceptIdent "unrestricted"
    let name ← expectIdent
    typeBehind typeExpr unsigned unrestricted name

/-- Reads a type. -/
def typeExpr : TokenParser TypeExpr := Parser.recursive (.unexpectedEof .identifier) typeBody

/-! ## Members -/

/-- Takes an equals sign with a default value behind it, if there is one. -/
def optionalDefault : TokenParser Unit := do
  if ← acceptPunct '=' then skipDefault

/-- Takes an ellipsis, if it is next. -/
def acceptEllipsis : TokenParser Bool := fun ts =>
  match ts with
  | ⟨.ellipsis, _⟩ :: rest => .ok (true, rest)
  | _ => .ok (false, ts)

/-- Reads an argument. An ellipsis makes it variadic, whatever stands in front. -/
def argument : TokenParser Argument := do
  skipAttributes
  let isOptional ← acceptIdent "optional"
  let type ← typeExpr
  let isVariadic ← acceptEllipsis
  let name ← expectIdent
  optionalDefault
  pure ⟨if isVariadic then .variadic else if isOptional then .optional else .required, type, name⟩

/-- Reads arguments up to the closing parenthesis. -/
def argumentList : TokenParser (List Argument) := do
  if ← checkPunct ')' then pure []
  else
    let (first, others) ← separated argument
    pure (first :: others)

/-- Reads arguments in parentheses. -/
def arguments : TokenParser (List Argument) := do
  expectPunct '('
  let list ← argumentList
  expectPunct ')'
  pure list

/-- Takes a member modifier, if one is next. -/
def acceptModifier : TokenParser (Option Modifier) := fun ts =>
  match ts with
  | ⟨.ident keyword, _⟩ :: rest =>
    match Modifier.ofKeyword? keyword with
    | some m => .ok (some m, rest)
    | none => .ok (none, ts)
  | _ => .ok (none, ts)

/-- Takes an identifier, if one is next. -/
def acceptName : TokenParser (Option String) := fun ts =>
  match ts with
  | ⟨.ident name, _⟩ :: rest => .ok (some name, rest)
  | _ => .ok (none, ts)

/-- Reads an attribute behind its keyword. -/
def attributeBody (modifiers : List Modifier) : TokenParser Member := do
  let type ← typeExpr
  let name ← expectIdent
  expectPunct ';'
  pure (.attribute modifiers type name)

/-- Reads an operation behind its modifiers. -/
def operationBody (modifiers : List Modifier) : TokenParser Member := do
  let type ← typeExpr
  let name? ← acceptName
  let list ← arguments
  expectPunct ';'
  pure (.operation modifiers type name? list)

/-- Reads a member of an interface with its modifiers; `none` for a member that is skipped. Such a
    member may have modifiers, as in `readonly maplike<K, V>;`. -/
def modifiedMember : TokenParser (Option Member) := do
  let modifiers ← Parser.many acceptModifier
  if ← checkAnyIdent skippedMembers then
    skipStatement
    pure none
  else if ← acceptIdent "attribute" then some <$> attributeBody modifiers
  else some <$> operationBody modifiers

/-- Reads a member of an interface; `none` for a member that is skipped. -/
def interfaceMember : TokenParser (Option Member) := do
  if ← checkAnyIdent skippedMembers then
    skipStatement
    pure none
  else if (← checkIdent "stringifier") && (← checkSecondPunct ';') then
    skip
    skip
    pure (some .stringifier)
  else modifiedMember

/-- Reads a member of a dictionary. -/
def dictionaryMember : TokenParser (Option Member) := do
  let _ ← acceptIdent "required"
  let type ← typeExpr
  let name ← expectIdent
  optionalDefault
  expectPunct ';'
  pure (some (.attribute [] type name))

/-- Reads a member of a definition. -/
def member : DefinitionKind → TokenParser (Option Member)
  | .interface => interfaceMember
  | .dictionary => dictionaryMember

/-- Reads a member of a block; `none` at the closing brace, which is taken. -/
def blockItem (kind : DefinitionKind) : TokenParser (Option (Option Member)) := do
  skipAttributes
  if ← acceptPunct '}' then pure none
  else if ← atEnd then unexpected (.punct '}')
  else
    let next ← member kind
    pure (some next)

/-- Reads members in braces up to the semicolon behind them. -/
def memberBlock (kind : DefinitionKind) : TokenParser (List Member) := do
  expectPunct '{'
  let members ← Parser.many (blockItem kind)
  expectPunct ';'
  pure (members.filterMap id)

/-! ## Definitions -/

/-- Reads the parent behind a colon, if there is one. -/
def inheritance : TokenParser (Option String) := do
  if ← acceptPunct ':' then some <$> expectIdent else pure none

/-- Reads a definition behind its keyword. -/
def definitionBody (kind : DefinitionKind) (isPartial : Bool) : TokenParser Definition := do
  let name ← expectIdent
  let parent? ← inheritance
  let block ← memberBlock kind
  pure ⟨kind, name, parent?, [block], isPartial⟩

/-- Reads a statement at the top level behind its extended attributes; `none` for one that is
    skipped. -/
def declaration : TokenParser (Option Definition) := do
  let isPartial ← acceptIdent "partial"
  if ← acceptIdent "callback" then
    if ← acceptIdent "interface" then some <$> definitionBody .interface isPartial
    else
      skipStatement
      pure none
  else if ← acceptIdent "interface" then
    let _ ← acceptIdent "mixin"
    some <$> definitionBody .interface isPartial
  else if ← acceptIdent "dictionary" then some <$> definitionBody .dictionary isPartial
  else if isPartial && !(← checkIdent "namespace") then unexpected .partialDefinition
  else
    skipStatement
    pure none

/-- Reads one statement at the top level: `none` at the end, `some none` for a statement that is
    skipped. -/
def statement : TokenParser (Option (Option Definition)) := do
  skipAttributes
  if ← atEnd then pure none else some <$> declaration

/-- The definitions among tokens up to the end or the first error, and that error. -/
def definitions (tokens : List Token) : List Definition × Except ParseError Unit :=
  let (found, outcome) := Parser.collect statement tokens
  (found.filterMap id, outcome.map fun _ => ())

end IdlBind.WebIdl
