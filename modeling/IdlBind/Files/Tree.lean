import IdlBind.Files.Store

set_option autoImplicit false

/-! # Trees of files in memory

A tree holds directories and files below a root, which is the directory that relative paths start
from. What lies outside of the root is an empty directory that cannot be written to. -/

namespace IdlBind

/-- What stands at a place of a tree. -/
inductive FileEntry where
  | directory
  | file (bytes : ByteArray)

/-- Is it a directory? -/
def FileEntry.isDirectory : FileEntry → Bool
  | .directory => true
  | .file _ => false

/-- Directories and files, by the names on the way from the root. The root itself is not listed. -/
structure FileTree where
  entries : List (List String × FileEntry)

namespace FileTree

/-- A tree without files. -/
def empty : FileTree := ⟨[]⟩

/-! ## Places -/

/-- A place inside the tree, by the names on the way from the root, or outside of it. -/
inductive Place where
  | inside (names : List String)
  | outside
  deriving DecidableEq, Repr

/-- What stands at a place, if anything. -/
def entryAt? (t : FileTree) : Place → Option FileEntry
  | .outside => some .directory
  | .inside [] => some .directory
  | .inside names => (t.entries.find? (·.1 = names)).map (·.2)

/-- The directory around a place. -/
def Place.around : Place → Place
  | .inside (name :: names) => .inside (name :: names).dropLast
  | .inside [] => .outside
  | .outside => .outside

/-- The place of a name in a directory. -/
def Place.child : Place → String → Except FileError Place
  | .inside names, name => .ok (.inside (names ++ [name]))
  | .outside, _ => .error .notFound

/-- How many bytes a name can have. -/
def nameLimit : Nat := 255

/-- How many bytes a path can have. -/
def pathLimit : Nat := 4095

/-- Goes on by one component of a path, which needs a directory to go on from. -/
def step (t : FileTree) (here : Place) (component : String) : Except FileError Place :=
  match t.entryAt? here with
  | none => .error .notFound
  | some (.file _) => .error .notADirectory
  | some .directory =>
    if component = "." then .ok here
    else if component = ".." then .ok here.around
    else if component.utf8ByteSize > nameLimit then .error .nameTooLong
    else here.child component

/-- The place that components lead to. Something may or may not stand there. -/
def walk (t : FileTree) : Place → List String → Except FileError Place
  | here, [] => .ok here
  | here, component :: components =>
    match t.step here component with
    | .error e => .error e
    | .ok next => t.walk next components

/-- The place that a path names. -/
def place (t : FileTree) (path : String) : Except FileError Place :=
  if path.toList.contains '\x00' then .error .nulInName
  else if path.isEmpty then .error .notFound
  else if path.utf8ByteSize > pathLimit then .error .nameTooLong
  else
    t.walk (if FilePath.isAbsolute path then .outside else .inside []) (FilePath.components path)

/-- What a path names. What stands in front of a slash at the end must be a directory. -/
def find (t : FileTree) (path : String) : Except FileError FileEntry :=
  match t.place path with
  | .error e => .error e
  | .ok here =>
    match t.entryAt? here with
    | none => .error .notFound
    | some (.file bytes) =>
      if FilePath.endsInSlash path then .error .notADirectory else .ok (.file bytes)
    | some .directory => .ok .directory

/-! ## Reading and writing -/

/-- The tree with an entry at a place inside it. -/
def put (t : FileTree) (names : List String) (entry : FileEntry) : FileTree :=
  ⟨(names, entry) :: t.entries.filter (·.1 ≠ names)⟩

/-- What a path names, if anything. -/
def kindOf? (t : FileTree) (path : String) : Option FileKind :=
  match t.find path with
  | .ok (.file _) => some .file
  | .ok .directory => some .directory
  | .error _ => none

/-- The bytes of a file. -/
def read (t : FileTree) (path : String) : Except FileError ByteArray :=
  match t.find path with
  | .ok (.file bytes) => .ok bytes
  | .ok .directory => .error .isADirectory
  | .error e => .error e

/-- Where a file can be written: not where a directory stands, nor behind a slash at the end. -/
def writable (t : FileTree) (path : String) : Except FileError (List String) :=
  match t.place path with
  | .error e => .error e
  | .ok .outside => .error .isADirectory
  | .ok (.inside names) =>
    if FilePath.endsInSlash path || (t.entryAt? (.inside names)).any (·.isDirectory) then
      .error .isADirectory
    else .ok names

/-- Replaces the bytes of a file or makes the file. -/
def write (t : FileTree) (path : String) (bytes : ByteArray) : Except FileError FileTree :=
  match t.writable path with
  | .error e => .error e
  | .ok names => .ok (t.put names (.file bytes))

/-- Makes a directory where nothing stands. -/
def makeDirectory (t : FileTree) (path : String) : Except FileError FileTree :=
  match t.place path with
  | .error e => .error e
  | .ok .outside => .error .alreadyExists
  | .ok (.inside names) =>
    if (t.entryAt? (.inside names)).isSome then .error .alreadyExists
    else .ok (t.put names .directory)

/-- Takes over a changed tree, unless the change failed. -/
def update (change : FileTree → Except FileError FileTree) :
    StateM FileTree (Except FileError Unit) := fun t =>
  match change t with
  | .ok t => (.ok (), t)
  | .error e => (.error e, t)

instance : FileStore (StateM FileTree) where
  kindOf? path := fun t => (t.kindOf? path, t)
  read path := fun t => (t.read path, t)
  write path bytes := update fun t => t.write path bytes
  makeDirectory path := update fun t => t.makeDirectory path

/-! ## What a write changes -/

theorem entryAt?_put_self (t : FileTree) {names : List String} (entry : FileEntry)
    (h : names ≠ []) : (t.put names entry).entryAt? (.inside names) = some entry := by
  cases names with
  | nil => exact absurd rfl h
  | cons name names => simp [entryAt?, put]

theorem entryAt?_put_of_ne (t : FileTree) {names : List String} (entry : FileEntry)
    {here : Place} (h : here ≠ .inside names) :
    (t.put names entry).entryAt? here = t.entryAt? here := by
  match here with
  | .outside => rfl
  | .inside [] => rfl
  | .inside (name :: others) =>
    have other : names ≠ name :: others := fun same => h (by rw [same])
    simp only [entryAt?, put, List.find?_cons, decide_eq_true_eq, other, decide_false,
      List.find?_filter]
    congr 2
    funext entry
    by_cases same : entry.1 = name :: others
    · simp [same, Ne.symm other]
    · simp [same]

end FileTree

end IdlBind
