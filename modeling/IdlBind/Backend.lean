import IdlBind.CName
import IdlBind.Descriptor
import IdlBind.Emission

set_option autoImplicit false

/-! # Backends

A generated file has nine sections. A backend says what each of them holds for one scripting engine.
The header comment and the preamble are the same for all. -/

namespace IdlBind

/-! ## Sections -/

/-- A section of a generated file. -/
inductive Section where
  | headerComment
  | preamble
  | privateDeclaration
  | classDescriptor
  | operatorBodies
  | propertyBodies
  | functionSpec
  | propertySpec
  | constructors
  deriving DecidableEq, Repr

namespace Section

/-- The sections in the order of the file. -/
def all : List Section :=
  [.headerComment, .preamble, .privateDeclaration, .classDescriptor, .operatorBodies,
   .propertyBodies, .functionSpec, .propertySpec, .constructors]

/-- The name of a section in messages and reports. -/
def name : Section → String
  | .headerComment => "header comment"
  | .preamble => "preamble"
  | .privateDeclaration => "private declaration"
  | .classDescriptor => "class descriptor"
  | .operatorBodies => "operator bodies"
  | .propertyBodies => "property bodies"
  | .functionSpec => "function spec"
  | .propertySpec => "property spec"
  | .constructors => "constructors"

end Section

/-! ## Backends -/

/-- A scripting engine and how bindings for it are named. -/
structure Target where
  name : String
  bindingType : String
  engine : String
  fileExtension : String
  deriving DecidableEq, Repr

/-- What each section holds, for one scripting engine. -/
structure Backend where
  target : Target
  emit : Section → Descriptor → Emission

/-- The name of a backend. -/
def Backend.name (b : Backend) : String := b.target.name

/-! ## Sections that are the same for all engines -/

/-- The name and version of the generator in the header comment. -/
def generatorName : String := "glue 0.1.0"

/-- The text of a node behind some text in front of it. -/
def emitTextOf (before : String) (n : Node) : Emission :=
  match n.getText with
  | .ok text => .ofText (before ++ text)
  | .error cause => .fail (.tree cause)

/-- The lines of one header comment statement. -/
def headerLines (comment : Node) : Emission :=
  match comment.getChildren with
  | .ok children => .concat ((Node.eachKind .string children).map (emitTextOf "\n * "))
  | .error cause => .fail (.tree cause)

/-- A comment that names the generator, with a line for every string of a header comment. What
    stands in front of a faulty node is written. -/
def headerComment (d : Descriptor) : Emission :=
  .ofText ("/* Generated by " ++ generatorName) ++
    .concat ((Node.eachKind .headerComment d.statements).map headerLines) ++
    .ofText "\n */\n\n"

/-- Every preamble as it is. What stands in front of a faulty node is written. -/
def preamble (d : Descriptor) : Emission :=
  .concat ((Node.eachKind .preamble d.statements).map (emitTextOf "")) ++ .ofText "\n\n"

/-! ## Private fields -/

/-- A field of the private struct. -/
structure PrivateField where
  ctype : String
  name : String
  deriving DecidableEq, Repr

/-- The declaration of a field. -/
def PrivateField.declaration (f : PrivateField) : String := CName.declaration f.ctype f.name

/-- The first child of a private entry with a kind. -/
def entryChild (k : NodeKind) (entry : Node) : Except EmitError Node :=
  match entry.child? k with
  | some n => .ok n
  | none => .error (.missingNode k "private entry")

/-- The text of a node in a private entry. -/
def entryText (n : Node) : Except EmitError String :=
  match n.getText with
  | .ok s => .ok s
  | .error cause => .error (.tree cause)

/-- The field of a private entry. Both nodes must be there before either is read. -/
def privateField (entry : Node) : Except EmitError PrivateField := do
  let ctypeNode ← entryChild .string entry
  let nameNode ← entryChild .ident entry
  let ctype ← entryText ctypeNode
  let name ← entryText nameNode
  pure ⟨ctype, name⟩

/-- The private fields in the order of the binding block. -/
def Descriptor.privateFields (d : Descriptor) : Except EmitError (List PrivateField) :=
  (Node.eachKind .bindingPrivate d.block.children).mapM privateField

/-! ## Members -/

/-- The members of the interface that is bound. -/
def Descriptor.members (d : Descriptor) : Except EmitError Members :=
  match resolve d.definitions d.interface with
  | .ok m => .ok m
  | .error e => .error (.resolve e)

/-- A notice for every operation without a name: nothing is emitted for it. -/
def Members.notices (m : Members) : List String :=
  (m.operations.filter fun o => o.name?.isNone).map fun o =>
    "skipping special operation without identifier on " ++ o.interface

/-- The comment in front of what one block of members gives. -/
def blockBanner (interface : String) : String := "/**** " ++ interface ++ " ****/\n"

/-- Lines of text, each with a line feed. -/
def unlines (lines : List String) : String := String.join (lines.map (· ++ "\n"))

end IdlBind
