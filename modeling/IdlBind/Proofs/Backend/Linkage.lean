import IdlBind.Backend.Catalogue
import IdlBind.Proofs.Backend.Lines

set_option autoImplicit false

/-! # Tables and stubs

The bodies that a backend emits define stubs, and the rows of its tables refer to stubs. `Linkage`
says how both are read off the emitted text, and `Linkage.Lists` which stubs and rows there are for
members: one body for every operation with a name, a getter behind an optional setter for every
attribute, and rows in the same order. -/

namespace IdlBind

/-! ## Reading stubs and rows -/

/-- A row of a property table: the name that it shows, the stub of the getter, and that of the
    setter unless the row has none. -/
structure PropertyEntry where
  label : String
  getter : String
  setter? : Option String
  deriving DecidableEq, Repr

/-- The stubs to which a row refers, in the order in which their bodies are emitted. -/
def PropertyEntry.stubs (e : PropertyEntry) : List String := e.setter?.toList ++ [e.getter]

/-- A backend with the names of its stubs and the readers for its text: for the line that starts the
    body of a stub, and for the rows of both tables. -/
structure Linkage where
  backend : Backend
  label : String → String
  method : String → String → String
  getter : String → String → String
  setter : String → String → String
  body? : List Char → Option String
  rowStub? : List Char → Option String
  rowAccessors? : List Char → Option PropertyEntry

/-- The row for an attribute. -/
def Linkage.entry (l : Linkage) (a : ResolvedAttribute) : PropertyEntry :=
  ⟨l.label a.name, l.getter a.interface a.name,
    if a.readOnly then none else some (l.setter a.interface a.name)⟩

/-! ## Stubs and rows of members -/

namespace Linkage

/-- The stubs that the bodies of a section define. -/
def bodies (l : Linkage) (d : Descriptor) (s : Section) : List String :=
  readLines l.body? (l.backend.emit s d).text

/-- The stubs to which the method table refers. -/
def methodEntries (l : Linkage) (d : Descriptor) : List String :=
  readLines l.rowStub? (l.backend.emit .functionSpec d).text

/-- The rows of the property table. -/
def propertyEntries (l : Linkage) (d : Descriptor) : List PropertyEntry :=
  readLines l.rowAccessors? (l.backend.emit .propertySpec d).text

/-- The bodies and the rows that a backend emits for members. -/
structure Lists (l : Linkage) (d : Descriptor) (m : Members) : Prop where
  methodBodies : l.bodies d .operatorBodies
    = m.identifiedOperations.map fun p => l.method p.1.interface p.2
  accessorBodies : l.bodies d .propertyBodies = m.attributes.flatMap fun a => (l.entry a).stubs
  methodEntries : l.methodEntries d
    = m.identifiedOperations.map fun p => l.method p.1.interface p.2
  propertyEntries : l.propertyEntries d = m.attributes.map l.entry

end Linkage

end IdlBind
