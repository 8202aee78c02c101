import IdlBind.Command.Settings
import IdlBind.Config

set_option autoImplicit false

/-! # Commands

What the arguments of the program ask for. Arguments that ask for nothing are refused as a whole. -/

namespace IdlBind

/-- A command. Settings of a generation go over those of the configuration file. -/
inductive Command where
  | generate (binding : String) (output? : Option String) (settings : Config)
  | dump (input : String) (references : Bool) (format : String) (idlPaths : List String)
  | backends
  | initConfig (output : String) (preset? : Option String)
  deriving DecidableEq, Repr

/-- What is asked for: the version, a help text, or a command under a configuration file. -/
inductive Request where
  | version
  | help
  | run (config? : Option String) (command : Command)
  deriving DecidableEq, Repr

namespace Command

/-! ## Which settings there are -/

/-- The settings that can stand in front of the command and behind it. -/
def globalSpecs : List Spec :=
  [⟨.verbose, "verbose", some 'v', .nothing, false⟩,
   ⟨.config, "config", some 'c', .path, false⟩,
   ⟨.help, "help", some 'h', .nothing, false⟩]

/-- The settings in front of the command. -/
def programSpecs : List Spec :=
  globalSpecs ++ [⟨.version, "version", some 'V', .nothing, false⟩]

/-- A search directory for WebIDL files. -/
def idlPathSpec : Spec := ⟨.idlPath, "idl-path", some 'I', .path, true⟩

/-- The settings of each command, by its name. -/
def specs? : String → Option (List Spec)
  | "generate" => some (globalSpecs ++
    [⟨.output, "output", some 'o', .path, false⟩,
     idlPathSpec,
     ⟨.backend, "backend", some 'b', .text, false⟩,
     ⟨.dumpWebIdl, "dump-webidl", none, .nothing, false⟩])
  | "dump" => some (globalSpecs ++
    [⟨.webIdl, "webidl", none, .nothing, false⟩,
     ⟨.format, "format", some 'f', .text, false⟩,
     idlPathSpec])
  | "backends" => some globalSpecs
  | "init-config" => some (globalSpecs ++
    [⟨.output, "output", some 'o', .path, false⟩,
     ⟨.preset, "preset", some 'p', .text, false⟩])
  | _ => none

/-! ## Commands from arguments -/

/-- The only operand, which must be a path. -/
def onlyPath? : List String → Option String
  | [path] => if path.isEmpty then none else some path
  | _ => none

/-- The command of a name, from the settings in front of it, those behind it and the operands. -/
def ofArguments? (name : String) (before given : List Given) (operands : List String) :
    Option Command :=
  match name with
  | "generate" => (onlyPath? operands).map fun binding =>
    .generate binding (value? given .output)
      { idlPaths := values given .idlPath
        backend? := value? given .backend
        dumpWebIdl := isGiven given .dumpWebIdl
        verbose := isGiven before .verbose || isGiven given .verbose }
  | "dump" => (onlyPath? operands).map fun input =>
    .dump input (isGiven given .webIdl) ((value? given .format).getD "tree")
      (values given .idlPath)
  | "backends" => if operands.isEmpty then some .backends else none
  | "init-config" =>
    if operands.isEmpty then
      some (.initConfig ((value? given .output).getD "glue.toml") (value? given .preset))
    else none
  | _ => none

/-- Can help be asked for with these words behind `help`? -/
def isHelpTopic : List String → Bool
  | [] => true
  | [topic] => topic = "help" || (specs? topic).isSome
  | _ => false

end Command

namespace Request

open Command

/-- The request of a command behind its name. A configuration file named there counts more than one
    named in front. -/
def ofCommand? (before : List Given) (name : String) (arguments : List String) :
    Option Request := do
  let (given, operands) ← arguments? (← specs? name) false arguments
  if isGiven given .help then some .help
  else
    let command ← Command.ofArguments? name before given operands
    some (.run (value? given .config <|> value? before .config) command)

/-- What the arguments of the program ask for. -/
def ofArguments? (arguments : List String) : Option Request := do
  let (before, rest) ← arguments? programSpecs true arguments
  if isGiven before .version then some .version
  else if isGiven before .help then some .help
  else match rest with
    | [] => none
    | "help" :: topic => if isHelpTopic topic then some .help else none
    | name :: rest => ofCommand? before name rest

end Request

end IdlBind
