import IdlBind.Command.Run

set_option autoImplicit false

/-! # The program

The commands over the file system of the machine. -/

namespace IdlBind

/-- The file error for what the system reports. -/
def FileError.ofSystem : IO.Error → FileError
  | .noFileOrDirectory .. => .notFound
  | .alreadyExists .. => .alreadyExists
  | .inappropriateType _ 20 _ => .notADirectory
  | .inappropriateType _ 21 _ => .isADirectory
  | e => .other (toString e)

/-- The result of an action, with what the system reports as a file error. -/
def FileError.catching {α : Type} (action : IO α) : IO (Except FileError α) := do
  try
    return .ok (← action)
  catch e =>
    return .error (.ofSystem e)

/-- What a path names in the file system. -/
def FileKind.ofSystem? (path : String) : IO (Option FileKind) := do
  try
    match (← (← IO.FS.realPath path).metadata).type with
    | .file => return some .file
    | .dir => return some .directory
    | _ => return some .other
  catch _ => return none

instance : FileStore IO where
  kindOf? path := FileKind.ofSystem? path
  read path := FileError.catching (IO.FS.readBinFile path)
  write path bytes := FileError.catching (IO.FS.writeBinFile path bytes)
  makeDirectory path := FileError.catching (IO.FS.createDir path)

/-- The word in front of a message. -/
def Command.Severity.label : Command.Severity → String
  | .warning => "WARN"
  | .error => "ERROR"

end IdlBind

/-- Runs the command that the arguments ask for: output goes to standard output, messages to
    standard error. -/
def main (arguments : List String) : IO UInt32 := do
  let outcome ← IdlBind.Command.runArguments (m := IO) arguments
  let output ← IO.getStdout
  output.write outcome.output
  output.flush
  for (severity, message) in outcome.messages do
    IO.eprintln (severity.label ++ " " ++ message)
  return outcome.status.toUInt32
