import IdlBind.Json
import IdlBind.Node

set_option autoImplicit false

/-! # Trees as chained records

The stored form of a list of siblings: the record of the first node, whose field `next` holds the
rest of the list. The empty list is `null`. A record has the fields `kind`, `payload` and `next`;
the payload is an object with the single member `Text`, `Int` or `Node`. -/

namespace IdlBind

/-- The name of a kind in stored form. -/
def NodeKind.tag : NodeKind → String
  | .root => "Root"
  | .ident => "Ident"
  | .interface => "Interface"
  | .dictionary => "Dictionary"
  | .interfaceMembers => "InterfaceMembers"
  | .interfaceInheritance => "InterfaceInheritance"
  | .attribute => "Attribute"
  | .operation => "Operation"
  | .argumentList => "ArgumentList"
  | .argument => "Argument"
  | .optionalArgument => "OptionalArgument"
  | .ellipsis => "Ellipsis"
  | .type => "Type"
  | .typeBase => "TypeBase"
  | .typeModifier => "TypeModifier"
  | .modifier => "Modifier"
  | .binding => "Binding"
  | .bindingType => "BindingType"
  | .bindingInterface => "BindingInterface"
  | .bindingPrivate => "BindingPrivate"
  | .preamble => "Preamble"
  | .headerComment => "HdrComment"
  | .string => "String"
  | .webIdlFile => "WebIdlFile"

/-- The kind with a name in stored form. -/
def NodeKind.ofTag? (tag : String) : Option NodeKind := NodeKind.all.find? (·.tag = tag)

namespace Node

/-! ## Writing -/

/-- The record of a node whose payload and following siblings are given in stored form. -/
def record (kind : NodeKind) (payload : String × Json) (next : Json) : Json :=
  .object [("kind", .string kind.tag), ("payload", .object [payload]), ("next", next)]

/-- The stored form of a list of siblings. -/
def toRecord : List Node → Json
  | [] => .null
  | .text k s :: rest => record k ("Text", .string s) (toRecord rest)
  | .int k n :: rest => record k ("Int", .int n) (toRecord rest)
  | .list k cs :: rest => record k ("Node", toRecord cs) (toRecord rest)

/-! ## Reading -/

/-- Does a number fit into 64 bits with a sign? -/
def isInt64 (n : Int) : Bool := -0x8000000000000000 ≤ n && n < 0x8000000000000000

/-- The kind that a value names. -/
def kindOfJson? : Json → Option NodeKind
  | .string tag => NodeKind.ofTag? tag
  | .object [(tag, .null)] => NodeKind.ofTag? tag
  | _ => none

mutual

/-- The list of siblings with a stored form. Fields beside the three are ignored, a missing `next`
    is the empty list, and the fields may stand in an array in their order. -/
def ofRecord? : Json → Option (List Node)
  | .null => some []
  | .object members => do
    let kind ← (Json.field? "kind" members).bind kindOfJson?
    let node ← payloadField? kind members
    let rest ← nextField? members
    pure (node :: rest)
  | .array [kind, payload, next] => do
    let kind ← kindOfJson? kind
    let node ← payload? kind payload
    let rest ← ofRecord? next
    pure (node :: rest)
  | _ => none

/-- The node with a kind and the first field `payload` among the members. -/
def payloadField? (kind : NodeKind) : List (String × Json) → Option Node
  | [] => none
  | (key, value) :: members =>
    if key = "payload" then payload? kind value else payloadField? kind members

/-- The siblings in the first field `next` among the members. -/
def nextField? : List (String × Json) → Option (List Node)
  | [] => some []
  | (key, value) :: members => if key = "next" then ofRecord? value else nextField? members

/-- The node with a kind and a payload in stored form. -/
def payload? (kind : NodeKind) : Json → Option Node
  | .object [("Text", .string s)] => some (.text kind s)
  | .object [("Int", .number n 0)] => if isInt64 n then some (.int kind n) else none
  | .object [("Node", value)] => (ofRecord? value).map (.list kind)
  | _ => none

end

end Node

end IdlBind
