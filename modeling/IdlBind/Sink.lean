set_option autoImplicit false

/-! # Sinks

Where output goes. A sink may take only so many bytes, and may fail to be flushed. -/

namespace IdlBind

/-- A sink: how many bytes it takes, if there is a limit, and whether flushing it fails. -/
structure Sink where
  capacity? : Option Nat
  flushFails : Bool
  deriving DecidableEq, Repr

namespace Sink

/-- A sink that takes everything. -/
def unlimited : Sink := ⟨none, false⟩

/-- What a full sink says. -/
def fullMessage : String := "sink full"

/-- What a sink says that cannot be flushed. -/
def flushMessage : String := "flush failed"

/-- The bytes in the sink after a write, and whether the sink took all that was written. It takes as
    much as it has room for. -/
def write (sink : Sink) (held written : ByteArray) : ByteArray × Bool :=
  match sink.capacity? with
  | none => (held ++ written, true)
  | some capacity =>
    if held.size + written.size ≤ capacity then (held ++ written, true)
    else (held ++ written.extract 0 (capacity - held.size), false)

end Sink

end IdlBind
