import IdlBind.Files.Store
import IdlBind.WebIdl.Loading

set_option autoImplicit false

/-! # Searching for WebIDL files

A relative reference is looked for in the search directories in order, then beside the binding
description. The first regular file counts. -/

namespace IdlBind.WebIdl

/-- Where references are searched for: directories, and the directory of the binding description. -/
structure Search where
  directories : List String
  base? : Option String := none
  deriving DecidableEq, Repr

namespace Search

/-- The paths that a reference can mean, in order. An absolute one means only itself. -/
def candidates (s : Search) (reference : String) : List String :=
  if FilePath.isAbsolute reference then [reference]
  else (s.directories ++ s.base?.toList).map fun dir => FilePath.join dir reference

variable {m : Type → Type} [Monad m] [FileStore m]

/-- The first of some paths that names a regular file. -/
def firstFile? : List String → m (Option String)
  | [] => pure none
  | path :: paths => do
    if ← FileStore.isFile path then pure (some path) else firstFile? paths

/-- The path of the file that a reference means. -/
def locate (s : Search) (reference : String) : m (Except LoadError String) := do
  match ← firstFile? (s.candidates reference) with
  | some path => pure (.ok path)
  | none => pure (.error (.notFound reference (s.candidates reference)))

/-- Reads references from the files that they mean. -/
def read (s : Search) : Reader m := fun reference => do
  match ← s.locate reference with
  | .error e => pure (.error e)
  | .ok path =>
    match ← FileStore.readText path with
    | .ok source => pure (.ok source)
    | .error cause => pure (.error (.file path cause))

end Search

end IdlBind.WebIdl
