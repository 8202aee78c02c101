import IdlBind.Members.Ancestry

set_option autoImplicit false

/-! # Members of a definition and its ancestors

The attributes and operations of an interface and of everything it inherits from, most derived
first, block by block. A dictionary resolves the same way when no interface has the name; its
ancestors are dictionaries only. Nothing is dropped because a name occurs twice. -/

namespace IdlBind

open WebIdl (ArgumentKind DefinitionKind Modifier)

/-! ## Members -/

/-- An argument of an operation. -/
structure ResolvedArgument where
  name : String
  kind : ArgumentKind
  deriving DecidableEq, Repr

/-- An attribute with the name of the definition that declares it. -/
structure ResolvedAttribute where
  interface : String
  name : String
  readOnly : Bool
  type? : Option Node
  deriving DecidableEq, Repr

/-- An operation with the name of the definition that declares it. Special operations may have no
    name. -/
structure ResolvedOperation where
  interface : String
  name? : Option String
  modifiers : List Modifier
  arguments : List ResolvedArgument
  deriving DecidableEq, Repr

/-- Does the operation take any number of arguments? -/
def ResolvedOperation.isVariadic (o : ResolvedOperation) : Bool :=
  o.arguments.any fun a => a.kind = .variadic

/-- A member of a block. -/
inductive ResolvedMember where
  | attribute (a : ResolvedAttribute)
  | operation (o : ResolvedOperation)
  deriving DecidableEq, Repr

/-- The attribute that a member is. -/
def ResolvedMember.attribute? : ResolvedMember → Option ResolvedAttribute
  | .attribute a => some a
  | .operation _ => none

/-- The operation that a member is. -/
def ResolvedMember.operation? : ResolvedMember → Option ResolvedOperation
  | .attribute _ => none
  | .operation o => some o

/-- The members that one block of a definition declares. -/
structure MemberBlock where
  interface : String
  members : List ResolvedMember
  deriving DecidableEq, Repr

/-- The attributes of a block. -/
def MemberBlock.attributes (b : MemberBlock) : List ResolvedAttribute :=
  b.members.filterMap ResolvedMember.attribute?

/-- The operations of a block. -/
def MemberBlock.operations (b : MemberBlock) : List ResolvedOperation :=
  b.members.filterMap ResolvedMember.operation?

/-- The members of a definition and its ancestors, with the names on the path. -/
structure Members where
  kind : DefinitionKind
  chain : List String
  blocks : List MemberBlock
  deriving DecidableEq, Repr

namespace Members

/-- All attributes, block by block. -/
def attributes (m : Members) : List ResolvedAttribute := m.blocks.flatMap MemberBlock.attributes

/-- All operations, block by block. -/
def operations (m : Members) : List ResolvedOperation := m.blocks.flatMap MemberBlock.operations

/-- The operations that have a name, with it. -/
def identifiedOperations (m : Members) : List (ResolvedOperation × String) :=
  m.operations.filterMap fun o => o.name?.map fun name => (o, name)

/-- How many operations have no name. -/
def specialOperationCount (m : Members) : Nat := m.operations.countP fun o => o.name?.isNone

end Members

/-! ## Where a block's members stand -/

/-- A block by the positions of its first member and of the one behind its last, among all
    attributes and among all operations. -/
structure BlockRange where
  interface : String
  attributeStart : Nat
  attributeEnd : Nat
  operationStart : Nat
  operationEnd : Nat
  deriving DecidableEq, Repr

/-- The ranges of blocks that come behind so many attributes and operations. -/
def blockRangesFrom (attributeStart operationStart : Nat) : List MemberBlock → List BlockRange
  | [] => []
  | b :: blocks =>
    let attributeEnd := attributeStart + b.attributes.length
    let operationEnd := operationStart + b.operations.length
    ⟨b.interface, attributeStart, attributeEnd, operationStart, operationEnd⟩ ::
      blockRangesFrom attributeEnd operationEnd blocks

/-- The ranges of all blocks. -/
def Members.blockRanges (m : Members) : List BlockRange := blockRangesFrom 0 0 m.blocks

/-! ## From trees -/

/-- The modifiers of a member. Integers that are no code count for nothing. -/
def resolveModifiers (member : Node) : Except ResolveError (List Modifier) :=
  match member.getChildren with
  | .error cause => .error (.tree cause)
  | .ok children =>
    match (Node.eachKind .modifier children).mapM Node.getInt with
    | .error cause => .error (.tree cause)
    | .ok codes => .ok (codes.filterMap Modifier.ofCode?)

/-- The attribute of a tree, which must have an identifier. -/
def resolveAttribute (interface : String) (member : Node) :
    Except ResolveError ResolvedAttribute := do
  match member.childText? .ident with
  | none => throw (.missingAttributeIdentifier interface)
  | some name =>
    let modifiers ← resolveModifiers member
    pure ⟨interface, name, modifiers.contains .readOnly, member.child? .type⟩

/-- The argument of a tree, if it is of an argument kind. Its name may be empty. -/
def resolveArgument? (argument : Node) : Option ResolvedArgument :=
  (ArgumentKind.ofNodeKind? argument.kind).map fun kind =>
    ⟨(argument.childText? .ident).getD "", kind⟩

/-- The operation of a tree. -/
def resolveOperation (interface : String) (member : Node) :
    Except ResolveError ResolvedOperation := do
  let arguments := ((member.child? .argumentList).map Node.children).getD []
  let modifiers ← resolveModifiers member
  pure ⟨interface, member.childText? .ident, modifiers, arguments.filterMap resolveArgument?⟩

/-- The members among trees. Trees of other kinds count for nothing. -/
def resolveMembers (interface : String) : List Node → Except ResolveError (List ResolvedMember)
  | [] => .ok []
  | n :: rest =>
    match n.kind with
    | .attribute => do
      let a ← resolveAttribute interface n
      let more ← resolveMembers interface rest
      pure (.attribute a :: more)
    | .operation => do
      let o ← resolveOperation interface n
      let more ← resolveMembers interface rest
      pure (.operation o :: more)
    | _ => resolveMembers interface rest

/-- The blocks of a definition. -/
def resolveBlocks (interface : String) (definition : Node) :
    Except ResolveError (List MemberBlock) :=
  (Node.eachKind .interfaceMembers definition.children).mapM fun block => do
    let members ← resolveMembers interface block.children
    pure ⟨interface, members⟩

/-- The blocks of the definitions on a path. -/
def resolvePath : List (String × Node) → Except ResolveError (List MemberBlock)
  | [] => .ok []
  | (name, definition) :: rest => do
    let blocks ← resolveBlocks name definition
    let more ← resolvePath rest
    pure (blocks ++ more)

/-- The kind of the definition with a name: an interface if there is one. -/
def definitionKind? (definitions : List Node) (name : String) : Option DefinitionKind :=
  if (findDefinition? .interface name definitions).isSome then some .interface
  else if (findDefinition? .dictionary name definitions).isSome then some .dictionary
  else none

/-- The members of the definition with a name and of its ancestors. A fault of a definition counts
    before anything that lies behind it on the path. -/
def resolve (definitions : List Node) (name : String) : Except ResolveError Members :=
  match definitionKind? definitions name with
  | none => .error (.interfaceNotFound name)
  | some kind => do
    let ancestors := ancestry definitions kind name
    let blocks ← resolvePath ancestors.path
    ancestors.ending
    pure ⟨kind, ancestors.path.map (·.1), blocks⟩

end IdlBind
