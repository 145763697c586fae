import FixedWidth.Files
import FixedWidth.Sink

/-!
# Commands

What can be asked for on a command line. Arguments are read from left to right, and the first one
that does not fit is the error; nothing is evaluated, loaded or written before all of them fit.

In the program: the command line's `run` as far as it picks a command, the loop over the arguments
in `eval_command`, `CliError` and `USAGE`. There each command reads its own arguments and goes on to
do its work; here all reading comes first and ends in a `Command`. As nothing is written or told
while arguments are read, the two cannot be told apart from outside.
-/

namespace FixedWidth

/-- Arguments that are no command. -/
inductive UsageError where
  | missingCommand
  | unknownCommand (name : String)
  | missingFiles
  | missingOperator
  | unknownOperator (name : String)
  | missingType
  | unknownType (name : String)
  deriving DecidableEq, Repr

/-- The error in words. -/
def UsageError.message : UsageError → String
  | missingCommand => "missing command"
  | unknownCommand name => "unknown command: " ++ name
  | missingFiles => "run needs at least one matrix file"
  | missingOperator => "eval needs an operator"
  | unknownOperator name => "Unknown operator: " ++ name
  | missingType => "--into needs a type"
  | unknownType name => "Unknown numeric type: " ++ name

/-- Why a command was not carried out. -/
inductive CommandError where
  | usage (cause : UsageError)
  | evaluation (cause : EvalError)
  | loading (cause : LoadError)
  | writing (cause : WriteError)

/-- The error in words. -/
def CommandError.message : CommandError → String
  | usage cause => cause.message
  | evaluation cause => cause.message
  | loading cause => cause.message
  | writing cause => cause.message

/-- One operation that is to be evaluated. -/
structure Request where
  op : Operator
  operands : List Value
  /-- The destination, if there is one. -/
  target : Option IntType
  /-- Whether the bytes of the result are wanted, too. -/
  bytes : Bool
  deriving DecidableEq, Repr

namespace Request

/-- Goes on reading arguments. The last destination counts; `--into` takes the argument after it,
whatever that looks like. -/
def extend (request : Request) : List String → Except CommandError Request
  | [] => .ok request
  | "--bytes" :: rest => { request with bytes := true }.extend rest
  | ["--into"] => .error (.usage .missingType)
  | "--into" :: name :: rest =>
    match IntType.ofName? name with
    | none => .error (.usage (.unknownType name))
    | some type => { request with target := some type }.extend rest
  | literal :: rest =>
    match Literal.read literal with
    | .error cause => .error (.evaluation (.invalidLiteral cause))
    | .ok v => { request with operands := request.operands ++ [v] }.extend rest

/-- The request that arguments make: an operator, then operands and options. -/
def ofArguments : List String → Except CommandError Request
  | [] => .error (.usage .missingOperator)
  | name :: rest =>
    match Operator.ofName? name with
    | none => .error (.usage (.unknownOperator name))
    | some op => extend ⟨op, [], none, false⟩ rest

end Request

/-- What is to be done. -/
inductive Command where
  /-- Run the matrices of some files. -/
  | run (paths : List String)
  /-- Evaluate one operation. -/
  | eval (request : Request)
  /-- Show the promotion tables. -/
  | table
  /-- Show how the program is used. -/
  | help
  deriving DecidableEq, Repr

namespace Command

/-- The command that arguments make; the name of the program is none of them. -/
def ofArguments : List String → Except CommandError Command
  | [] => .error (.usage .missingCommand)
  | "run" :: paths =>
    if paths.isEmpty then .error (.usage .missingFiles) else .ok (.run paths)
  | "eval" :: arguments => (Request.ofArguments arguments).map eval
  | "table" :: _ => .ok table
  | "-h" :: _ | "--help" :: _ | "help" :: _ => .ok help
  | name :: _ => .error (.usage (.unknownCommand name))

/-- How the program is used. -/
def usage : String :=
  "Usage:\n" ++
  "  intlower run <matrix.json>...                      Run scenario matrices\n" ++
  "  intlower eval <op> <type:value>... [--into <type>] [--bytes]\n" ++
  "                                                     Evaluate one operation\n" ++
  "  intlower table                                     Print the promotion tables\n" ++
  "\n" ++
  "Operators: add sub div mod shl shr neg not\n" ++
  "Types:     i32 u32 i64 u64"

end Command

end FixedWidth
