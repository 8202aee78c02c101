import IdlBind.Backend
import IdlBind.Sink

set_option autoImplicit false

/-! # Generating a file

A descriptor is built, then the sections are emitted in order into a sink. The first stage that
fails ends the run; what has been written stays written. -/

namespace IdlBind

/-! ## Stages -/

/-- A stage of a run. -/
inductive Stage where
  | loadBinding
  | emit (s : Section)
  deriving DecidableEq, Repr

namespace Stage

/-- The stages in order. -/
def all : List Stage := .loadBinding :: Section.all.map .emit

/-- The name of a stage. -/
def name : Stage → String
  | .loadBinding => "load binding"
  | .emit s => s.name

/-- The exit status of the program when a stage fails. -/
def exitCode : Stage → Nat
  | .loadBinding => 4
  | .emit .headerComment => 5
  | .emit .preamble => 6
  | .emit .privateDeclaration => 7
  | .emit .classDescriptor => 8
  | .emit .operatorBodies => 9
  | .emit .propertyBodies => 10
  | .emit .functionSpec => 11
  | .emit .propertySpec => 12
  | .emit .constructors => 13

end Stage

/-! ## Reports and failures -/

/-- Why a run failed, and in which stage. -/
inductive GenerateError where
  | descriptor (cause : DescriptorError)
  | emit (stage : Section) (cause : EmitError)
  deriving DecidableEq, Repr

namespace GenerateError

/-- The stage that failed. -/
def stage : GenerateError → Stage
  | .descriptor _ => .loadBinding
  | .emit s _ => .emit s

/-- The wording of the cause alone. -/
def causeMessage : GenerateError → String
  | .descriptor cause => cause.message
  | .emit _ cause => cause.message

/-- The wording of a failure. -/
def message (e : GenerateError) : String :=
  e.stage.name ++ " stage failed: " ++ e.causeMessage

/-- The exit status of the program. -/
def exitCode (e : GenerateError) : Nat := e.stage.exitCode

end GenerateError

/-- What a run has written: the backend, the interface, and how many bytes each section took. -/
structure Report where
  backend : String
  interface : String
  sections : List (Section × Nat)
  deriving DecidableEq, Repr

/-- How many bytes there are in all. -/
def Report.bytes (r : Report) : Nat :=
  r.sections.foldr (fun s bytes => s.2 + bytes) 0

/-- How a run ended, with the bytes in the sink and the notices given. -/
structure Run (α : Type) where
  output : ByteArray
  notices : List String
  result : Except GenerateError α

/-! ## Runs -/

/-- Emits one section into a sink that holds `held`. A sink that runs full counts before the failure
    of the emission. -/
def emitSection (sink : Sink) (held : ByteArray) (s : Section) (e : Emission) : Run Nat :=
  let bytes := e.text.toUTF8
  match sink.write held bytes, e.failure? with
  | (output, false), _ => ⟨output, e.notices, .error (.emit s (.sink Sink.fullMessage))⟩
  | (output, true), some cause => ⟨output, e.notices, .error (.emit s cause)⟩
  | (output, true), none => ⟨output, e.notices, .ok bytes.size⟩

/-- Emits sections in order into a sink that holds `held`. -/
def emitSections (sink : Sink) (backend : Backend) (d : Descriptor) (held : ByteArray) :
    List Section → Run (List (Section × Nat))
  | [] => ⟨held, [], .ok []⟩
  | s :: rest =>
    let first := emitSection sink held s (backend.emit s d)
    match first.result with
    | .error e => ⟨first.output, first.notices, .error e⟩
    | .ok size =>
      let more := emitSections sink backend d first.output rest
      ⟨more.output, first.notices ++ more.notices, more.result.map ((s, size) :: ·)⟩

/-- Emits all sections into an empty sink and flushes it. A sink that cannot be flushed fails in the
    last section. -/
def emitAll (sink : Sink) (backend : Backend) (d : Descriptor) : Run Report :=
  let run := emitSections sink backend d .empty Section.all
  ⟨run.output, run.notices, do
    let sections ← run.result
    if sink.flushFails then .error (.emit .constructors (.sink Sink.flushMessage))
    else .ok ⟨backend.name, d.interface, sections⟩⟩

/-- Loads the WebIDL that a binding description names, then emits. -/
def generate {m : Type → Type} [Monad m] (read : WebIdl.Reader m) (sink : Sink)
    (backend : Backend) (statements : List Node) : m (Run Report) := do
  match ← Descriptor.load read statements with
  | .error cause => pure ⟨.empty, [], .error (.descriptor cause)⟩
  | .ok d => pure (emitAll sink backend d)

end IdlBind
