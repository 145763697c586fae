import FixedWidth.Evaluation

/-!
# The log

What is told about a run while it goes on. An event is its cause; level, wording and fields are
views of it. `Logged` carries the events of a computation beside its result, in order.

In the program: the events of `evaluate`, `run_matrix` and `run_command`, with their levels, texts
and fields. They go to whoever listens while the program runs; here they are a list that a
computation returns beside its result, so that what is told can be compared with what is computed.
-/

namespace FixedWidth

/-- How much an event matters. -/
inductive Level where
  | debug
  | info
  | warn
  deriving DecidableEq, Repr

/-- The name of a level. -/
def Level.name : Level → String
  | debug => "debug"
  | info => "info"
  | warn => "warn"

/-- Something worth telling. -/
inductive Event where
  /-- An operation had a result, before any conversion into a destination. -/
  | evaluated (op : Operator) (operands : List Value) (result : Value)
  /-- The scenarios that follow belong to another group than the one before. -/
  | groupStarted (group : String)
  /-- A scenario came out as expected. -/
  | scenarioPassed (name expr : String)
  /-- A scenario did not come out as expected. -/
  | scenarioFailed (name expr reason : String)
  /-- A matrix is done. -/
  | matrixComplete (passed total : Nat)
  /-- A matrix file is about to be read. -/
  | fileStarted (path : String)
  deriving DecidableEq, Repr

namespace Event

/-- The level of an event. -/
def level : Event → Level
  | evaluated .. | scenarioPassed .. => .debug
  | groupStarted .. | matrixComplete .. | fileStarted .. => .info
  | scenarioFailed .. => .warn

/-- The wording of an event. -/
def message : Event → String
  | evaluated .. => "evaluated"
  | groupStarted group => "---" ++ group ++ ":"
  | scenarioPassed name _ => name ++ " okay"
  | scenarioFailed name _ reason => name ++ " NOT okay: " ++ reason
  | matrixComplete .. => "matrix complete"
  | fileStarted path => "running " ++ path

/-- An operand with the name of its container, as in `Int32(-5)`. -/
def operandText (v : Value) : String :=
  v.type.containerName ++ "(" ++ v.decimal ++ ")"

/-- The fields of an event, by name. -/
def fields : Event → List (String × String)
  | evaluated op operands result =>
    [("op", op.name), ("operands", "[" ++ ", ".intercalate (operands.map operandText) ++ "]"),
      ("result", result.literal), ("bits", result.hex)]
  | scenarioPassed _ expr => [("expr", expr)]
  | scenarioFailed _ expr _ => [("expr", expr)]
  | matrixComplete passed total =>
    [("passed", Numeral.decimalText passed), ("total", Numeral.decimalText total)]
  | groupStarted _ | fileStarted _ => []

end Event

/-- A result with the events that led to it. -/
structure Logged (α : Type) where
  events : List Event
  value : α

namespace Logged

variable {α β : Type}

instance : Monad Logged where
  pure a := ⟨[], a⟩
  bind x f := ⟨x.events ++ (f x.value).events, (f x.value).value⟩

/-- Tells one event. -/
def tell (event : Event) : Logged Unit := ⟨[event], ()⟩

@[simp] theorem events_pure (a : α) : (pure a : Logged α).events = [] := rfl

@[simp] theorem value_pure (a : α) : (pure a : Logged α).value = a := rfl

/-- The events of a sequence come in the order of its parts. -/
@[simp] theorem events_bind (x : Logged α) (f : α → Logged β) :
    (x >>= f).events = x.events ++ (f x.value).events := rfl

@[simp] theorem value_bind (x : Logged α) (f : α → Logged β) :
    (x >>= f).value = (f x.value).value := rfl

@[simp] theorem events_tell (event : Event) : (tell event).events = [event] := rfl

end Logged

/-- Evaluates, and tells the result if there is one. -/
def evaluateLogged (op : Operator) (operands : List Value) :
    Logged (Except EvalError Evaluated) :=
  match evaluate op operands with
  | .error e => pure (.error e)
  | .ok result => do
    Logged.tell (.evaluated op operands result.value)
    pure (.ok result)

/-- Evaluates into a destination, and tells the result as it was before it is stored. -/
def evaluateIntoLogged (op : Operator) (operands : List Value) (target : Option IntType) :
    Logged (Except EvalError Evaluated) := do
  let outcome ← evaluateLogged op operands
  match outcome with
  | .error e => pure (.error e)
  | .ok result => pure (result.storeIn target)

/-- The log does not change what is evaluated. -/
@[simp] theorem value_evaluateIntoLogged (op : Operator) (operands : List Value)
    (target : Option IntType) :
    (evaluateIntoLogged op operands target).value = evaluateInto op operands target := by
  unfold evaluateIntoLogged evaluateLogged evaluateInto
  cases evaluate op operands <;> rfl

end FixedWidth
