import FixedWidth.Literal
import FixedWidth.Text.Bytes

/-!
# Sinks

Where output goes: a sink takes bytes in the order in which they are written, and one with a limit
takes no more than that many in all. What is written across the limit is taken up to it, and then
the sink says that it is full.

In the program: the writer that `run` and `write_immediate` are given. There it can be anything that
takes bytes; here it takes all of them or stops at a limit, which is all that its caller can notice.
-/

namespace FixedWidth

/-- Why a sink did not take everything. -/
inductive WriteError where
  | full
  deriving DecidableEq, Repr

/-- The error in words. -/
def WriteError.message : WriteError → String
  | full => "writer full"

/-- A place for output, with what it has taken so far. -/
structure Sink where
  limit : Option Nat := none
  taken : List UInt8 := []
  deriving DecidableEq, Repr

namespace Sink

/-- Those of some bytes for which a sink still has room. -/
def fitting (sink : Sink) (bytes : List UInt8) : List UInt8 :=
  match sink.limit with
  | none => bytes
  | some limit => bytes.take (limit - sink.taken.length)

/-- Writes bytes: what the sink says, and the sink with as many of them as it has room for. -/
def write (sink : Sink) (bytes : List UInt8) : Except WriteError Unit × Sink :=
  let fitting := sink.fitting bytes
  (if fitting.length < bytes.length then .error .full else .ok (),
    { sink with taken := sink.taken ++ fitting })

end Sink

/-- Writes the bytes under which an instruction carries a value. -/
def Value.writeImmediate (v : Value) (sink : Sink) : Except WriteError Unit × Sink :=
  sink.write v.immediate

end FixedWidth
