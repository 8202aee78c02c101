import IdlBind.Token.Stream
import IdlBind.WebIdl.Parser

set_option autoImplicit false

/-! # WebIDL documents

A document collects the definitions of one or more sources, one for each kind and name. Further
definitions of the same kind and name add their blocks. -/

namespace IdlBind.WebIdl

/-- Do two definitions define the same thing? -/
def Definition.sameKey (a b : Definition) : Bool := a.kind = b.kind && a.name = b.name

/-- A definition with another of the same kind and name merged into it. The blocks of the first
    definition that is not partial go to the front, all others to the back; the first parent
    stays. -/
def Definition.merge (old new : Definition) : Definition :=
  let newLeads := old.isPartial && !new.isPartial
  { old with
    parent? := old.parent?.or new.parent?
    blocks := if newLeads then new.blocks ++ old.blocks else old.blocks ++ new.blocks
    isPartial := old.isPartial && new.isPartial }

/-- Merged definitions in the order in which each was first met. -/
structure Document where
  definitions : List Definition
  deriving Repr, Inhabited

namespace Document

/-- The document without definitions. -/
def empty : Document := ⟨[]⟩

/-- Merges a definition into the first one with its kind and name, or puts it at the end. -/
def insertInto (d : Definition) : List Definition → List Definition
  | [] => [d]
  | e :: es => if e.sameKey d then e.merge d :: es else e :: insertInto d es

/-- The document with one more definition. -/
def insert (doc : Document) (d : Definition) : Document := ⟨insertInto d doc.definitions⟩

/-- The document with the definitions of a source. Those in front of an error stay. -/
def addSource (doc : Document) (source : String) : Document × Except ParseError Unit :=
  match TokenStream.ofString source with
  | .error e => (doc, .error e)
  | .ok stream =>
    let (found, outcome) := WebIdl.definitions stream.ahead
    (found.foldl insert doc, outcome)

/-- How many definitions there are. -/
def size (doc : Document) : Nat := doc.definitions.length

/-- Are there no definitions? -/
def isEmpty (doc : Document) : Bool := doc.definitions.isEmpty

/-- The definitions as trees. -/
def toNodes (doc : Document) : List Node := doc.definitions.map Definition.toNode

end Document

/-- The trees of the definitions of one source. -/
def parse (source : String) : Except ParseError (List Node) :=
  match Document.empty.addSource source with
  | (doc, .ok ()) => .ok doc.toNodes
  | (_, .error e) => .error e

end IdlBind.WebIdl
