import IdlBind.WebIdl.Loading

set_option autoImplicit false

/-! # Binding descriptors

A descriptor is everything from which code is generated: the trees of the binding description and of
the WebIDL, and what the first binding block says. -/

namespace IdlBind

/-- Why there is no descriptor. -/
inductive DescriptorError where
  | noBindingBlock
  | missingName
  | missingInterface (binding : String)
  | load (cause : WebIdl.LoadError)
  | tree (cause : Node.Mismatch)
  deriving DecidableEq, Repr

/-- The wording of a descriptor error. -/
def DescriptorError.message : DescriptorError → String
  | .noBindingBlock => "no binding block in binding description"
  | .missingName => "binding block has no name"
  | .missingInterface binding => "binding " ++ binding ++ " does not name an interface"
  | .load cause => "Error reading WebIDL files: " ++ cause.message
  | .tree cause => cause.message

/-- What is bound, and from which trees. -/
structure Descriptor where
  statements : List Node
  definitions : List Node
  block : Node
  name : String
  interface : String
  bindingType? : Option String
  deriving DecidableEq, Repr

namespace Descriptor

/-- The text of a node, as a descriptor needs it. -/
def textOf (n : Node) : Except DescriptorError String :=
  match n.getText with
  | .ok s => .ok s
  | .error cause => .error (.tree cause)

/-- The descriptor of a binding description and WebIDL definitions. -/
def ofTrees (statements definitions : List Node) : Except DescriptorError Descriptor := do
  let some block := Node.findKind? .binding statements | throw .noBindingBlock
  let some nameNode := block.child? .ident | throw .missingName
  let name ← textOf nameNode
  let some interfaceNode := block.child? .bindingInterface | throw (.missingInterface name)
  let interface ← textOf interfaceNode
  let bindingType? ← match block.child? .bindingType with
    | some typeNode => some <$> textOf typeNode
    | none => pure none
  pure { statements, definitions, block, name, interface, bindingType? }

/-- The descriptor of a binding description, with the WebIDL files that it names. Without a binding
    block no file is read. -/
def load {m : Type → Type} [Monad m] (read : WebIdl.Reader m) (statements : List Node) :
    m (Except DescriptorError Descriptor) :=
  if (Node.findKind? .binding statements).isNone then pure (.error .noBindingBlock)
  else do
    match ← WebIdl.load read statements with
    | .error cause => pure (.error (.load cause))
    | .ok doc => pure (ofTrees statements doc.toNodes)

end Descriptor

end IdlBind
