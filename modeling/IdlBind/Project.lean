import IdlBind.Binding.Parser
import IdlBind.Config
import IdlBind.Generation
import IdlBind.WebIdl.Search

set_option autoImplicit false

/-! # Generating from files

A binding description is read from a file, with the WebIDL files that it names; a backend is
selected, and the generated text goes to a sink or into a file. The output file is made only once
everything is loaded. -/

namespace IdlBind

/-- Why nothing, or not everything, could be generated from a file. -/
inductive ProjectError where
  | config (cause : ConfigError)
  | unknownBackend (name : String)
  | readBinding (path : String) (cause : FileError)
  | parseBinding (path : String) (cause : ParseError)
  | openOutput (path : String) (cause : FileError)
  | generate (cause : GenerateError)
  deriving DecidableEq, Repr

namespace ProjectError

/-- The wording of a failure. -/
def message : ProjectError → String
  | .config cause => "Configuration error: " ++ cause.message
  | .unknownBackend name => "Unknown backend: " ++ name
  | .readBinding path cause =>
    "Error reading binding " ++ Text.quoted path ++ ": " ++ cause.message
  | .parseBinding path cause =>
    "Error parsing binding " ++ Text.quoted path ++ ": " ++ cause.message
  | .openOutput path cause =>
    "Error opening output " ++ Text.quoted path ++ ": " ++ cause.message
  | .generate cause => cause.message

/-- The exit status of the program. -/
def exitCode : ProjectError → Nat
  | .config _ => 1
  | .unknownBackend _ => 1
  | .readBinding .. => 2
  | .parseBinding .. => 2
  | .openOutput .. => 3
  | .generate cause => cause.exitCode

end ProjectError

namespace Project

variable {m : Type → Type} [Monad m] [FileStore m]

/-- Where the references of a binding description are searched for. A path without a directory part
    adds no directory. -/
def searchFor (config : Config) (path : String) : WebIdl.Search :=
  ⟨config.idlPaths, (FilePath.parent? path).filter (· ≠ "")⟩

/-- The trees of a binding description in a file. -/
def readStatements (path : String) : m (Except ProjectError (List Node)) := do
  match ← FileStore.readText path with
  | .error cause => pure (.error (.readBinding path cause))
  | .ok text => pure ((Binding.parse text).mapError (.parseBinding path))

/-- The descriptor of a binding description in a file. -/
def load (config : Config) (path : String) : m (Except ProjectError Descriptor) := do
  match ← readStatements path with
  | .error e => pure (.error e)
  | .ok statements =>
    match ← Descriptor.load (searchFor config path).read statements with
    | .error cause => pure (.error (.generate (.descriptor cause)))
    | .ok d => pure (.ok d)

/-- The backend of the configuration, else the one for the type of the binding, else the one for
    `jsapi`. -/
def selectBackend (config : Config) (d : Descriptor) : Except ProjectError Backend :=
  let selected := match config.backend?, d.bindingType? with
    | some name, _ => (Backend.ofName? name, name)
    | none, some bindingType => (Backend.ofBindingType? bindingType, bindingType)
    | none, none => (Backend.ofName? "jsapi", "jsapi")
  match selected with
  | (some backend, _) => .ok backend
  | (none, name) => .error (.unknownBackend name)

/-- The descriptor of a binding description in a file, and the backend for it. -/
def prepare (config : Config) (path : String) :
    m (Except ProjectError (Descriptor × Backend)) := do
  match ← load config path with
  | .error e => pure (.error e)
  | .ok d => pure ((selectBackend config d).map fun backend => (d, backend))

/-- How generating ended: what was written, the notices given, and the report or the failure. -/
structure Outcome where
  output : ByteArray
  notices : List String
  result : Except ProjectError Report

/-- An end before anything was written. -/
def Outcome.failed (e : ProjectError) : Outcome := ⟨.empty, [], .error e⟩

/-- The end of a run. -/
def Outcome.ofRun (run : Run Report) : Outcome :=
  ⟨run.output, run.notices, run.result.mapError .generate⟩

/-- Generates into a sink that takes everything. -/
def generate (config : Config) (path : String) : m Outcome := do
  match ← prepare config path with
  | .error e => pure (.failed e)
  | .ok (d, backend) => pure (.ofRun (emitAll .unlimited backend d))

/-- Generates into a file. A run that fails in a section leaves what it has written. -/
def generateFile (config : Config) (path output : String) : m Outcome := do
  match ← prepare config path with
  | .error e => pure (.failed e)
  | .ok (d, backend) =>
    let run := emitAll .unlimited backend d
    match ← FileStore.write output run.output with
    | .error cause => pure (.failed (.openOutput output cause))
    | .ok () => pure (.ofRun run)

end Project

end IdlBind
