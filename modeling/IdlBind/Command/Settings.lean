set_option autoImplicit false

/-! # Settings on a command line

A setting is written with two dashes and its name, or with one dash and its letter; letters of
several settings can stand behind one dash. The value of a setting is the next argument, or stands
in the same one behind an equals sign or directly behind the letter. Every other argument is an
operand, as are all arguments behind two dashes alone. -/

namespace IdlBind.Command

/-- What can be set on the command line. -/
inductive Setting where
  | help
  | version
  | verbose
  | config
  | output
  | idlPath
  | backend
  | dumpWebIdl
  | webIdl
  | format
  | preset
  deriving DecidableEq, Repr

/-- What a setting takes: nothing, any text, or a path, which cannot be empty. -/
inductive ValueKind where
  | nothing
  | text
  | path
  deriving DecidableEq, Repr

/-- How a setting is written, and whether it can be given more than once. -/
structure Spec where
  setting : Setting
  long : String
  short? : Option Char
  takes : ValueKind
  repeats : Bool := false
  deriving DecidableEq, Repr

/-- A setting that has been given, with its value. -/
structure Given where
  setting : Setting
  value : String := ""
  deriving DecidableEq, Repr

/-- Does nothing count behind this setting? -/
def Setting.isFinal : Setting → Bool
  | .help | .version => true
  | _ => false

/-! ## One argument -/

/-- What an argument is: settings, of which the last may wait for its value; an operand; or the end
    of the settings. -/
inductive Reading where
  | settings (given : List Given) (waiting? : Option Setting)
  | operand
  | endOfSettings
  deriving DecidableEq, Repr

/-- Reads a setting behind two dashes. -/
def readLong? (specs : List Spec) (body : List Char) : Option Reading := do
  let spec ← specs.find? (·.long.toList = body.takeWhile (· ≠ '='))
  match spec.takes, body.dropWhile (· ≠ '=') with
  | .nothing, [] => some (.settings [⟨spec.setting, ""⟩] none)
  | .nothing, _ :: _ => none
  | _, [] => some (.settings [] (some spec.setting))
  | _, _ :: value => some (.settings [⟨spec.setting, String.ofList value⟩] none)

/-- Reads the letters behind one dash. -/
def readShorts? (specs : List Spec) : List Char → Option (List Given × Option Setting)
  | [] => some ([], none)
  | letter :: rest => do
    let spec ← specs.find? (·.short? = some letter)
    match spec.takes, rest with
    | .nothing, _ =>
      if spec.setting.isFinal then some ([⟨spec.setting, ""⟩], none)
      else do
        let (given, waiting?) ← readShorts? specs rest
        some (⟨spec.setting, ""⟩ :: given, waiting?)
    | _, [] => some ([], some spec.setting)
    | _, '=' :: value => some ([⟨spec.setting, String.ofList value⟩], none)
    | _, value => some ([⟨spec.setting, String.ofList value⟩], none)

/-- Reads an argument that is not a value. -/
def readArgument? (specs : List Spec) (argument : String) : Option Reading :=
  match argument.toList with
  | ['-'] => some .operand
  | ['-', '-'] => some .endOfSettings
  | '-' :: '-' :: body => readLong? specs body
  | '-' :: letters => (readShorts? specs letters).map fun (given, waiting?) =>
    .settings given waiting?
  | _ => some .operand

/-- Can the argument be the value of the setting in front of it? -/
def isValue (argument : String) : Bool :=
  argument.toList = ['-'] || argument.toList.head? ≠ some '-'

/-! ## All arguments -/

/-- Reads arguments into the settings given and the operands. `split` says whether the first operand
    ends the settings; then all arguments from there on count as operands. `waiting?` is a setting
    that waits for its value. -/
def readArguments? (specs : List Spec) (split : Bool) :
    Option Setting → List String → Option (List Given × List String)
  | none, [] => some ([], [])
  | some _, [] => none
  | some waiting, value :: rest =>
    if isValue value then do
      let (given, operands) ← readArguments? specs split none rest
      some (⟨waiting, value⟩ :: given, operands)
    else none
  | none, argument :: rest => do
    match ← readArgument? specs argument with
    | .endOfSettings => some ([], if split then argument :: rest else rest)
    | .operand =>
      if split then some ([], argument :: rest)
      else do
        let (given, operands) ← readArguments? specs split none rest
        some (given, argument :: operands)
    | .settings now waiting? =>
      if now.any (·.setting.isFinal) then some (now, [])
      else do
        let (given, operands) ← readArguments? specs split waiting? rest
        some (now ++ given, operands)

/-- Is the value of the kind that the setting takes? -/
def Given.fits (specs : List Spec) (g : Given) : Bool :=
  specs.all fun spec => !(spec.setting = g.setting && spec.takes = .path && g.value.isEmpty)

/-- Is each setting that cannot repeat given at most once, and has each value the right kind? -/
def acceptable (specs : List Spec) (given : List Given) : Bool :=
  given.all (Given.fits specs) &&
    specs.all fun spec => spec.repeats || given.countP (·.setting = spec.setting) ≤ 1

/-- The settings given and the operands, unless some setting cannot be given so. -/
def arguments? (specs : List Spec) (split : Bool) (arguments : List String) :
    Option (List Given × List String) :=
  (readArguments? specs split none arguments).filter fun read => acceptable specs read.1

/-! ## What has been given -/

/-- Is the setting given? -/
def isGiven (given : List Given) (s : Setting) : Bool := given.any (·.setting = s)

/-- All values given for a setting, in order. -/
def values (given : List Given) (s : Setting) : List String :=
  (given.filter (·.setting = s)).map (·.value)

/-- The value given for a setting that cannot repeat. -/
def value? (given : List Given) (s : Setting) : Option String := (values given s).head?

end IdlBind.Command
