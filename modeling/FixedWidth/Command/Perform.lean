import FixedWidth.Command
import FixedWidth.Promotion.Table
import FixedWidth.Run

/-!
# Carrying out commands

A command writes to a sink, tells the log what goes on, and ends with whether all went well, or with
an error. `invoke` puts reading the arguments and carrying them out together; `conclude` says with
which status and which complaint a program ends after that.

In the program: the command line's `run_command` (`runFiles` and `performRun`), `eval_command` after
its loop, `table_command`, and what `main` makes of the result (`conclude`). There a line may reach
the writer in several pieces; how a text is cut into pieces makes no difference to a sink.
-/

namespace FixedWidth

/-- A computation that may fail, writes to a sink and tells a log. What was written and told before
a failure stays. -/
abbrev CommandM := ExceptT CommandError (StateT Sink Logged)

namespace CommandM

variable {α : Type}

/-- Tells one event. -/
def tell (event : Event) : CommandM Unit := fun sink => do
  Logged.tell event
  pure (.ok (), sink)

/-- Goes on with the result of a computation that only tells a log. -/
def logged (x : Logged α) : CommandM α := fun sink => do
  let a ← x
  pure (.ok a, sink)

/-- Writes a text to the sink. -/
def emit (text : String) : CommandM Unit := fun sink =>
  match sink.write (Text.bytes text) with
  | (.ok (), sink) => pure (.ok (), sink)
  | (.error cause, sink) => pure (.error (.writing cause), sink)

/-- Writes a line to the sink. -/
def emitLine (text : String) : CommandM Unit := do
  emit text
  emit "\n"

/-- Writes cells one after another, and ends the line. -/
def emitRow (cells : List String) : CommandM Unit := do
  cells.forM emit
  emit "\n"

/-- Goes on with a result, or fails as it did. -/
def ofExcept {ε : Type} (error : ε → CommandError) : Except ε α → CommandM α
  | .ok a => pure a
  | .error e => throw (error e)

end CommandM

namespace Command

open CommandM

/-- Runs the matrices of files one after another, adding to a report. -/
def runFiles (files : Files) (report : Report) : List String → CommandM Report
  | [] => pure report
  | path :: rest => do
    tell (.fileStarted path)
    let m ← ofExcept .loading (files.load path)
    let next ← logged m.run
    runFiles files (report.merge next) rest

/-- Runs the matrices of all files, and writes one report if all of them could be loaded, line by
line. -/
def performRun (files : Files) (paths : List String) : CommandM Bool := do
  let report ← runFiles files {} paths
  report.lines.forM emitLine
  pure report.isSuccess

/-- The bytes of a value as hexadecimal digits, two for each. -/
def byteDigits (bytes : List UInt8) : String :=
  String.ofList (bytes.flatMap fun byte => Numeral.hex 2 byte.toNat)

/-- Evaluates, and writes the result. -/
def performEval (request : Request) : CommandM Bool := do
  let outcome ← logged (evaluateIntoLogged request.op request.operands request.target)
  let result ← ofExcept .evaluation outcome
  emitLine result.value.described
  if request.bytes then emitLine ("immediate: " ++ byteDigits result.value.immediate)
  pure true

/-- Writes the promotion tables. -/
def performTable : CommandM Bool := do
  Promotion.tableRows.forM emitRow
  pure true

/-- Writes how the program is used. -/
def performHelp : CommandM Bool := do
  emitLine usage
  pure true

/-- Carries out a command. -/
def perform (files : Files) : Command → CommandM Bool
  | run paths => performRun files paths
  | eval request => performEval request
  | table => performTable
  | help => performHelp

/-- Carries out the command that arguments make. -/
def invoke (files : Files) (arguments : List String) : CommandM Bool := do
  perform files (← ofExcept id (ofArguments arguments))

/-! ## The end of the program -/

/-- The status with which a program ends, and what it says about it. -/
structure Conclusion where
  status : Nat
  complaint : String
  deriving DecidableEq, Repr

/-- How a program ends after a command: with 0 if all went well, 1 if scenarios failed, and 2 after
an error. One about the arguments comes with the usage. -/
def conclude : Except CommandError Bool → Conclusion
  | .ok true => ⟨0, ""⟩
  | .ok false => ⟨1, ""⟩
  | .error (.usage cause) => ⟨2, cause.message ++ "\n\n" ++ usage ++ "\n"⟩
  | .error e => ⟨2, "Error: " ++ e.message ++ "\n"⟩

end Command

end FixedWidth
