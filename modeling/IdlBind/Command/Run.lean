import IdlBind.Command.Request
import IdlBind.Language
import IdlBind.Node.Json
import IdlBind.Node.Outline
import IdlBind.Project

set_option autoImplicit false

/-! # Running commands

A command reads and writes files, and comes to an exit status, some output and some messages. -/

namespace IdlBind

/-! ## The causes of failures -/

/-- The wording of what lies behind a load error. -/
def WebIdl.LoadError.causes : WebIdl.LoadError → List String
  | .notFound .. => []
  | .file _ cause => [cause.message]
  | .parse _ cause => [cause.message]
  | .tree _ => []

/-- The wording of what lies behind a failed run, outermost first. -/
def GenerateError.causes (e : GenerateError) : List String :=
  e.causeMessage :: match e with
    | .descriptor (.load cause) => cause.message :: cause.causes
    | .descriptor _ => []
    | .emit _ (.sink message) => [message]
    | .emit _ _ => []

/-- The wording of what lies behind a failure to generate from a file, outermost first. -/
def ProjectError.causes : ProjectError → List String
  | .config cause => [cause.message]
  | .unknownBackend _ => []
  | .readBinding _ cause => [cause.message]
  | .parseBinding _ cause => [cause.message]
  | .openOutput _ cause => [cause.message]
  | .generate cause => cause.causes

/-- Why a command other than `generate` failed. -/
inductive CommandError where
  | config (cause : ConfigError)
  | load (cause : ProjectError)
  | read (path : String) (cause : FileError)
  | parse (path : String) (cause : ParseError)
  | write (path : String) (cause : ConfigError)
  | unknownFormat (name : String)
  | unknownPreset (name : String)
  | alreadyExists (path : String)
  deriving DecidableEq, Repr

namespace CommandError

/-- The wording of a failure and of what lies behind it, outermost first. -/
def trace : CommandError → List String
  | .config cause => [cause.message]
  | .load cause => cause.message :: cause.causes
  | .read path cause => ["reading " ++ path, cause.message]
  | .parse path cause => ["parsing " ++ path, cause.message]
  | .write path cause => ["writing " ++ path, cause.message]
  | .unknownFormat name => ["unknown format " ++ Text.quoted name ++ ", expected tree or json"]
  | .unknownPreset name =>
    ["unknown preset " ++ Text.quoted name ++ ", expected jsapi or duktape"]
  | .alreadyExists path => [path ++ " already exists"]

/-- The message about a failed command. -/
def message (e : CommandError) : String := "Command failed: " ++ ": ".intercalate e.trace

end CommandError

namespace Command

/-! ## Outcomes -/

/-- How serious a message is. -/
inductive Severity where
  | warning
  | error
  deriving DecidableEq, Repr

/-- How a command ended: the exit status, what it has printed, and its messages in order. -/
structure Outcome where
  status : Nat
  output : ByteArray := .empty
  messages : List (Severity × String) := []

namespace Outcome

/-- An end without output or messages. -/
def silent (status : Nat) : Outcome := { status }

/-- A good end with some text printed. -/
def printed (text : String) : Outcome := { status := 0, output := text.toUTF8 }

/-- The end of a command other than `generate`. -/
def ofResult : Except CommandError String → Outcome
  | .ok text => printed text
  | .error e => { status := 1, messages := [(.error, e.message)] }

/-- The end of a generation that prints what is in `output`. -/
def ofGeneration (generation : Project.Outcome) (output : ByteArray) : Outcome :=
  let notices := generation.notices.map fun notice => (Severity.warning, notice)
  match generation.result with
  | .ok _ => ⟨0, output, notices⟩
  | .error e => ⟨e.exitCode, output, notices ++ [(.error, e.message)]⟩

end Outcome

/-! ## The commands -/

section

variable {m : Type → Type} [Monad m] [FileStore m]

/-- The configuration that a command works under: that of the file, if one is named, with the
    settings of the command line over it. It is not checked yet. -/
def configFor (config? : Option String) (settings : Config) : m (Except ConfigError Config) := do
  match config? with
  | none => pure (.ok (Config.merge {} settings))
  | some path => return (← Config.load path).map fun config => config.merge settings

/-- The configuration that a command works under, checked. -/
def usableConfig (config? : Option String) (settings : Config) :
    m (Except ConfigError Config) := do
  match ← configFor config? settings with
  | .error e => pure (.error e)
  | .ok config => return (← config.validate).map fun _ => config

/-- Generates into a file, or prints what is generated. -/
def runGenerate (config? : Option String) (binding : String) (output? : Option String)
    (settings : Config) : m Outcome := do
  match ← usableConfig config? settings with
  | .error e => pure (.ofGeneration (.failed (.config e)) .empty)
  | .ok config =>
    match output? with
    | some output => return .ofGeneration (← Project.generateFile config binding output) .empty
    | none =>
      let generation ← Project.generate config binding
      pure (.ofGeneration generation generation.output)

/-- The text of trees in a named format. -/
def treeText (format : String) (list : List Node) : Except CommandError String :=
  match format with
  | "tree" => .ok (Node.outline list)
  | "json" => .ok ((Node.listToJson list).pretty ++ "\n")
  | other => .error (.unknownFormat other)

/-- The trees in a file. -/
def treesIn (input : String) : m (Except CommandError (List Node)) := do
  match ← FileStore.readText input with
  | .error cause => pure (.error (.read input cause))
  | .ok source => pure (((Language.ofPath input).parse source).mapError (.parse input))

/-- The trees of the WebIDL that a binding description in a file names. -/
def referencedTrees (config? : Option String) (input : String) (idlPaths : List String) :
    m (Except CommandError (List Node)) := do
  match ← usableConfig config? { idlPaths } with
  | .error e => pure (.error (.config e))
  | .ok config =>
    match ← Project.load config input with
    | .error e => pure (.error (.load e))
    | .ok d => pure (.ok d.definitions)

/-- Shows the trees in a file, or of the WebIDL that it names. -/
def runDump (config? : Option String) (input : String) (references : Bool) (format : String)
    (idlPaths : List String) : m (Except CommandError String) := do
  let trees ← if references then referencedTrees config? input idlPaths else treesIn input
  pure (trees >>= treeText format)

/-- Writes a configuration file where nothing is yet. -/
def runInitConfig (output : String) (preset? : Option String) :
    m (Except CommandError String) := do
  match preset?.filter fun name => (Config.preset? name).isNone with
  | some name => pure (.error (.unknownPreset name))
  | none =>
    if ← FileStore.pathExists output then pure (.error (.alreadyExists output))
    else
      let config := (preset?.bind Config.preset?).getD {}
      match ← config.save output with
      | .error e => pure (.error (.write output e))
      | .ok () => pure (.ok "")

/-- A text filled with blanks up to a width. -/
def padded (width : Nat) (text : String) : String :=
  text ++ String.ofList (List.replicate (width - text.length) ' ')

/-- The line about a backend in a listing. -/
def backendLine (target : Target) : String :=
  padded 10 target.name ++ " " ++ padded 12 target.engine ++ " type " ++
    padded 12 target.bindingType ++ " ." ++ target.fileExtension ++ "\n"

/-- A line about each backend. -/
def backendListing : String := String.join (Backend.all.map fun b => backendLine b.target)

/-- Runs a command under a configuration file. -/
def run (config? : Option String) : Command → m Outcome
  | .generate binding output? settings => runGenerate config? binding output? settings
  | .dump input references format idlPaths =>
    return .ofResult (← runDump config? input references format idlPaths)
  | .backends => pure (.printed backendListing)
  | .initConfig output preset? => return .ofResult (← runInitConfig output preset?)

end

/-! ## The program -/

/-- The help text. -/
def usage : String :=
  "Usage: glue [-v] [-c CONFIG] COMMAND\n\n" ++
  "Commands:\n" ++
  "  generate BINDING [-o OUTPUT] [-I DIR]... [-b BACKEND] [--dump-webidl]\n" ++
  "  dump INPUT [--webidl] [-f FORMAT] [-I DIR]...\n" ++
  "  backends\n" ++
  "  init-config [-o OUTPUT] [-p PRESET]\n"

/-- Does what the arguments of the program ask for. Arguments that are refused end with status 2. -/
def runArguments {m : Type → Type} [Monad m] [FileStore m] (arguments : List String) :
    m Outcome :=
  match Request.ofArguments? arguments with
  | none => pure (.silent 2)
  | some .version => pure (.printed (generatorName ++ "\n"))
  | some .help => pure (.printed usage)
  | some (.run config? command) => command.run config?

end Command

end IdlBind
