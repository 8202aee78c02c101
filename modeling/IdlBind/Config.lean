import IdlBind.Backend.Catalogue
import IdlBind.Files.Store
import IdlBind.Toml.Parser
import IdlBind.Toml.Printer

set_option autoImplicit false

/-! # Configurations

Where WebIDL files are searched for and which backend is used. A configuration is written as TOML;
configurations can be merged, and are checked before they are used. -/

namespace IdlBind

/-- The settings of a run. Without a backend the binding description decides. -/
structure Config where
  idlPaths : List String := []
  backend? : Option String := none
  dumpWebIdl : Bool := false
  verbose : Bool := false
  deriving DecidableEq, Repr

/-- Why there is no configuration, or none that can be used. -/
inductive ConfigError where
  | file (path : String) (cause : FileError)
  | malformed (path : String)
  | unknownBackend (name : String)
  | notADirectory (idlPath : String)
  deriving DecidableEq, Repr

/-- The wording of a configuration error. -/
def ConfigError.message : ConfigError → String
  | .file path cause => "I/O error for " ++ Text.quoted path ++ ": " ++ cause.message
  | .malformed path => "Parse error for " ++ Text.quoted path ++ ": TOML parse error"
  | .unknownBackend name =>
    "Invalid configuration for backend: unknown backend " ++ Text.quoted name ++
      ", expected one of " ++ ", ".intercalate Backend.names
  | .notADirectory idlPath =>
    "Invalid configuration for idl_paths: " ++ idlPath ++ " is not a directory"

namespace Config

/-! ## Presets and merging -/

/-- A ready-made configuration: a backend, and WebIDL in one directory. -/
def preset? : String → Option Config
  | "jsapi" => some { idlPaths := ["webidl"], backend? := some "jsapi" }
  | "duktape" => some { idlPaths := ["webidl"], backend? := some "duktape" }
  | _ => none

/-- A configuration under another that counts more: the directories of the other are searched first,
    its backend counts if it has one, and a switch is on if it is on in either. -/
def merge (base upper : Config) : Config :=
  { idlPaths := upper.idlPaths ++ base.idlPaths
    backend? := upper.backend? <|> base.backend?
    dumpWebIdl := upper.dumpWebIdl || base.dumpWebIdl
    verbose := upper.verbose || base.verbose }

/-! ## Text -/

/-- The text of a configuration. -/
def toText (c : Config) : String :=
  Toml.keyLine "idl_paths" (Toml.arrayText (c.idlPaths.map Toml.stringText)) ++
  (match c.backend? with
    | some name => Toml.keyLine "backend" (Toml.stringText name)
    | none => "") ++
  Toml.keyLine "dump_webidl" (Toml.booleanText c.dumpWebIdl) ++
  Toml.keyLine "verbose" (Toml.booleanText c.verbose)

/-- A string. -/
def stringOf? : Toml.Value → Option String
  | .string text => some text
  | _ => none

/-- A truth value. -/
def booleanOf? : Toml.Value → Option Bool
  | .boolean value => some value
  | _ => none

/-- An array of strings. -/
def stringsOf? : Toml.Value → Option (List String)
  | .array items => items.mapM stringOf?
  | _ => none

/-- Takes over one setting. Keys that name none are passed over. -/
def set? (c : Config) : String × Toml.Value → Option Config
  | ("idl_paths", v) => (stringsOf? v).map fun paths => { c with idlPaths := paths }
  | ("backend", v) => (stringOf? v).map fun name => { c with backend? := some name }
  | ("dump_webidl", v) => (booleanOf? v).map fun value => { c with dumpWebIdl := value }
  | ("verbose", v) => (booleanOf? v).map fun value => { c with verbose := value }
  | _ => some c

/-- The configuration that a text describes. What it leaves out is as by default. -/
def ofText? (text : String) : Option Config := do
  (← Toml.parse? text).foldlM set? {}

/-! ## Files -/

variable {m : Type → Type} [Monad m] [FileStore m]

/-- Reads a configuration from a file. -/
def load (path : String) : m (Except ConfigError Config) := do
  match ← FileStore.readText path with
  | .error cause => pure (.error (.file path cause))
  | .ok text =>
    match ofText? text with
    | some c => pure (.ok c)
    | none => pure (.error (.malformed path))

/-- Makes the directory of a path, if the path has a directory part. -/
def makeParent (path : String) : m (Except ConfigError Unit) :=
  match FilePath.parent? path with
  | none => pure (.ok ())
  | some "" => pure (.ok ())
  | some parent => do
    match ← FileStore.ensureDirectories parent with
    | .error cause => pure (.error (.file parent cause))
    | .ok () => pure (.ok ())

/-- Writes a configuration to a file. Directories that are missing on the way are made. -/
def save (c : Config) (path : String) : m (Except ConfigError Unit) := do
  match ← makeParent path with
  | .error e => pure (.error e)
  | .ok () =>
    match ← FileStore.write path c.toText.toUTF8 with
    | .error cause => pure (.error (.file path cause))
    | .ok () => pure (.ok ())

/-! ## Checking -/

/-- The first of some paths that names something other than a directory. -/
def findNonDirectory? : List String → m (Option String)
  | [] => pure none
  | path :: paths => do
    match ← FileStore.kindOf? path with
    | some .file | some .other => pure (some path)
    | some .directory | none => findNonDirectory? paths

/-- Checks that the backend is known, and that the search directories are directories where they are
    anything. -/
def validate (c : Config) : m (Except ConfigError Unit) := do
  match c.backend?.filter fun name => (Backend.ofName? name).isNone with
  | some name => pure (.error (.unknownBackend name))
  | none =>
    match ← findNonDirectory? c.idlPaths with
    | some path => pure (.error (.notADirectory path))
    | none => pure (.ok ())

end Config

end IdlBind
