import IdlBind.Node
import IdlBind.WebIdl.Codes

set_option autoImplicit false

/-! # WebIDL definitions

The part of WebIDL from which bindings are generated: interfaces and dictionaries, their parents,
and their members block by block. Each construct has a fixed shape as a tree, given by `toNode`. -/

namespace IdlBind.WebIdl

/-! ## Types -/

/-- The types that are neither sequences nor defined by the user. -/
inductive BasicType where
  | bool
  | byte
  | octet
  | float
  | double
  | short
  | long
  | longLong
  | string
  | object
  | date
  | void
  | any
  deriving DecidableEq, Repr, Inhabited

/-- The base type of a basic type. -/
def BasicType.base : BasicType → BaseType
  | .bool => .bool
  | .byte => .byte
  | .octet => .octet
  | .float => .float
  | .double => .double
  | .short => .short
  | .long => .long
  | .longLong => .longLong
  | .string => .string
  | .object => .object
  | .date => .date
  | .void => .void
  | .any => .any

/-- Which modifiers a type has. -/
structure TypeFlags where
  unsigned : Bool
  unrestricted : Bool
  nullable : Bool
  deriving DecidableEq, Repr, Inhabited

/-- The modifiers that are set, in the order of their codes. -/
def TypeFlags.modifiers (flags : TypeFlags) : List TypeModifier :=
  (if flags.unsigned then [.unsigned] else []) ++
    (if flags.unrestricted then [.unrestricted] else []) ++
    (if flags.nullable then [.nullable] else [])

/-- A type: a basic one, a sequence with at least one element type, or one defined by the user with
    any number of parameters. -/
inductive TypeExpr where
  | basic (base : BasicType) (flags : TypeFlags)
  | sequence (first : TypeExpr) (others : List TypeExpr) (flags : TypeFlags)
  | named (name : String) (parameters : List TypeExpr) (flags : TypeFlags)
  deriving Repr, Inhabited

/-- The nodes of the modifiers that are set. -/
def TypeFlags.toNodes (flags : TypeFlags) : List Node :=
  flags.modifiers.map fun m => .int .typeModifier m.code

mutual

/-- A type as a tree: base, modifiers, the name of a user type, element types. -/
def TypeExpr.toNode : TypeExpr → Node
  | .basic base flags => .list .type (.int .typeBase base.base.code :: flags.toNodes)
  | .sequence first others flags =>
    .list .type (.int .typeBase BaseType.sequence.code :: flags.toNodes ++
      first.toNode :: TypeExpr.listToNodes others)
  | .named name parameters flags =>
    .list .type (.int .typeBase BaseType.user.code :: flags.toNodes ++
      .text .ident name :: TypeExpr.listToNodes parameters)

/-- Types as trees. -/
def TypeExpr.listToNodes : List TypeExpr → List Node
  | [] => []
  | t :: ts => t.toNode :: TypeExpr.listToNodes ts

end

/-! ## Members -/

/-- How an argument is passed. -/
inductive ArgumentKind where
  | required
  | optional
  | variadic
  deriving DecidableEq, Repr, Inhabited

/-- The kind of the node of an argument. -/
def ArgumentKind.nodeKind : ArgumentKind → NodeKind
  | .required => .argument
  | .optional => .optionalArgument
  | .variadic => .ellipsis

/-- The argument kind of a node kind. -/
def ArgumentKind.ofNodeKind? : NodeKind → Option ArgumentKind
  | .argument => some .required
  | .optionalArgument => some .optional
  | .ellipsis => some .variadic
  | _ => none

/-- An argument of an operation. -/
structure Argument where
  kind : ArgumentKind
  type : TypeExpr
  name : String
  deriving Repr, Inhabited

/-- An argument as a tree: type, identifier. -/
def Argument.toNode (a : Argument) : Node :=
  .list a.kind.nodeKind [a.type.toNode, .text .ident a.name]

/-- A member of an interface or a dictionary. The bare stringifier is an operation of which nothing
    but the keyword is written. -/
inductive Member where
  | attribute (modifiers : List Modifier) (type : TypeExpr) (name : String)
  | operation (modifiers : List Modifier) (type : TypeExpr) (name? : Option String)
      (arguments : List Argument)
  | stringifier
  deriving Repr, Inhabited

/-- The nodes of member modifiers. -/
def Modifier.listToNodes (modifiers : List Modifier) : List Node :=
  modifiers.map fun m => .int .modifier m.code

/-- A member as a tree: modifiers, type, identifier, arguments. -/
def Member.toNode : Member → Node
  | .attribute modifiers type name =>
    .list .attribute (Modifier.listToNodes modifiers ++ [type.toNode, .text .ident name])
  | .operation modifiers type name? arguments =>
    .list .operation (Modifier.listToNodes modifiers ++ [type.toNode] ++
      (name?.toList.map fun name => .text .ident name) ++
      [.list .argumentList (arguments.map Argument.toNode)])
  | .stringifier => .list .operation (Modifier.listToNodes [.stringifier])

/-! ## Definitions -/

/-- What is defined. -/
inductive DefinitionKind where
  | interface
  | dictionary
  deriving DecidableEq, Repr, Inhabited

/-- The kind of the node of a definition. -/
def DefinitionKind.nodeKind : DefinitionKind → NodeKind
  | .interface => .interface
  | .dictionary => .dictionary

/-- The keyword of a definition. -/
def DefinitionKind.keyword : DefinitionKind → String
  | .interface => "interface"
  | .dictionary => "dictionary"

/-- A definition with its members, block by block. A definition that is partial adds blocks to
    another of the same kind and name. -/
structure Definition where
  kind : DefinitionKind
  name : String
  parent? : Option String
  blocks : List (List Member)
  isPartial : Bool
  deriving Repr, Inhabited

/-- A definition as a tree: identifier, parent, blocks of members. -/
def Definition.toNode (d : Definition) : Node :=
  .list d.kind.nodeKind
    (.text .ident d.name ::
      (d.parent?.toList.map fun parent => .text .interfaceInheritance parent) ++
      d.blocks.map fun block => .list .interfaceMembers (block.map Member.toNode))

end IdlBind.WebIdl
