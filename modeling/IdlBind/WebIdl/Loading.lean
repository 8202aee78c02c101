import IdlBind.Files.Error
import IdlBind.Node.Query
import IdlBind.Text.Quoted
import IdlBind.WebIdl.Document

set_option autoImplicit false

/-! # Loading WebIDL

The WebIDL files that a binding description names are read in order into one document. How a
reference becomes text is a parameter: a table of texts, or files on disk. -/

namespace IdlBind.WebIdl

/-- Why the WebIDL of a binding description cannot be loaded. -/
inductive LoadError where
  | notFound (reference : String) (searched : List String)
  | file (path : String) (cause : FileError)
  | parse (reference : String) (cause : ParseError)
  | tree (cause : Node.Mismatch)
  deriving DecidableEq, Repr

/-- The wording of a load error. -/
def LoadError.message : LoadError → String
  | .notFound reference searched =>
    "WebIDL file " ++ Text.quoted reference ++ " not found (searched " ++
      Text.quotedList searched ++ ")"
  | .file path cause => "I/O error for " ++ Text.quoted path ++ ": " ++ cause.message
  | .parse reference cause =>
    "Error parsing WebIDL file " ++ Text.quoted reference ++ ": " ++ cause.message
  | .tree cause => cause.message

/-- How a reference becomes the text of a WebIDL file. -/
abbrev Reader (m : Type → Type) := String → m (Except LoadError String)

/-- Reads references from a table of texts. -/
def readTable (files : List (String × String)) : Reader Id := fun reference =>
  match files.find? (·.1 = reference) with
  | some (_, source) => .ok source
  | none => .error (.notFound reference [])

/-- The document with the WebIDL files that the nodes refer to, up to the first fault. -/
def loadInto {m : Type → Type} [Monad m] (read : Reader m) (doc : Document) :
    List Node → m (Except LoadError Document)
  | [] => pure (.ok doc)
  | node :: rest =>
    match node.getText with
    | .error cause => pure (.error (.tree cause))
    | .ok reference => do
      match ← read reference with
      | .error e => pure (.error e)
      | .ok source =>
        match doc.addSource source with
        | (doc, .ok ()) => loadInto read doc rest
        | (_, .error cause) => pure (.error (.parse reference cause))

/-- The document of all WebIDL files that a binding description names. -/
def load {m : Type → Type} [Monad m] (read : Reader m) (statements : List Node) :
    m (Except LoadError Document) :=
  loadInto read .empty (Node.eachKind .webIdlFile statements)

end IdlBind.WebIdl
