import IdlBind.Node

set_option autoImplicit false

/-! # Statements of a binding description

A binding description names WebIDL files, lines for the header comment, code to be copied, and in
one binding block what is bound. -/

namespace IdlBind.Binding

/-- An entry of the binding block. -/
inductive Entry where
  | type (name : String)
  | interface (name : String)
  | privateField (ctype : String) (name : String)
  deriving DecidableEq, Repr

/-- A statement of a binding description. A header comment has at least one line. -/
inductive Statement where
  | webIdlFile (reference : String)
  | headerComment (first : String) (others : List String)
  | preamble (code : String)
  | block (name : String) (entries : List Entry)
  deriving DecidableEq, Repr

/-- An entry as a tree. -/
def Entry.toNode : Entry → Node
  | .type name => .text .bindingType name
  | .interface name => .text .bindingInterface name
  | .privateField ctype name => .list .bindingPrivate [.text .string ctype, .text .ident name]

/-- A statement as a tree. -/
def Statement.toNode : Statement → Node
  | .webIdlFile reference => .text .webIdlFile reference
  | .headerComment first others =>
    .list .headerComment ((first :: others).map fun line => .text .string line)
  | .preamble code => .text .preamble code
  | .block name entries => .list .binding (.text .ident name :: entries.map Entry.toNode)

end IdlBind.Binding
