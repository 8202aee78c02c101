import IdlBind.FilePath
import IdlBind.Files.Error
import IdlBind.Text.Lossy

set_option autoImplicit false

/-! # Stores of files

The program reads and writes files through four operations. They are parameters: a tree in memory
has them, and so has the file system. Reading text and making a directory with its parents are built
from the four. -/

namespace IdlBind

/-- What a path can name. -/
inductive FileKind where
  | file
  | directory
  | other
  deriving DecidableEq, Repr

/-- Operations on files by their paths. -/
class FileStore (m : Type → Type) where
  /-- What a path names, if anything. -/
  kindOf? : String → m (Option FileKind)
  /-- The bytes of a file. -/
  read : String → m (Except FileError ByteArray)
  /-- Replaces the bytes of a file, or makes the file in a directory that there is. -/
  write : String → ByteArray → m (Except FileError Unit)
  /-- Makes a directory in a directory that there is. -/
  makeDirectory : String → m (Except FileError Unit)

namespace FileStore

variable {m : Type → Type} [Monad m] [FileStore m]

/-- Does the path name anything? -/
def pathExists (path : String) : m Bool := return (← kindOf? path).isSome

/-- Does the path name a regular file? -/
def isFile (path : String) : m Bool := return decide ((← kindOf? path) = some .file)

/-- Does the path name a directory? -/
def isDirectory (path : String) : m Bool := return decide ((← kindOf? path) = some .directory)

/-- The text of a file. -/
def readText (path : String) : m (Except FileError String) := do
  match ← read path with
  | .error e => pure (.error e)
  | .ok bytes =>
    match Text.decode? bytes with
    | some text => pure (.ok text)
    | none => pure (.error .notText)

/-- Makes a directory, unless there is one already. -/
def ensureDirectory (path : String) : m (Except FileError Unit) := do
  match ← makeDirectory path with
  | .ok () => pure (.ok ())
  | .error e => if ← isDirectory path then pure (.ok ()) else pure (.error e)

/-- Makes a directory and the parents that are missing. A parent is looked after only when the
    directory cannot be made for want of it. -/
def ensureDirectories (path : String) : m (Except FileError Unit) := do
  match ← ensureDirectory path with
  | .error .notFound =>
    match _ : FilePath.parent? path with
    | none => pure (.error .notFound)
    | some "" => pure (.error .notFound)
    | some parent => do
      match ← ensureDirectories parent with
      | .error e => pure (.error e)
      | .ok () => ensureDirectory path
  | outcome => pure outcome
termination_by path.length
decreasing_by exact FilePath.length_parent? ‹_›

end FileStore

end IdlBind
