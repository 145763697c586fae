import FixedWidth.Evaluation

/-!
# Scenarios

A scenario is one operation on literal operands together with what it has to come to: a value of a
certain type, or an error of a certain kind. A matrix is a list of scenarios; those that follow one
another under the same group name are reported together.

In the program: the scenario format, with `MatrixFile` (`Matrix`), `Scenario` with `describe`, and
`Expectation`, in the same form.
-/

namespace FixedWidth

/-- What an operation has to come to. -/
inductive Expectation where
  | value (v : Value)
  | error (kind : ErrorKind)
  deriving DecidableEq, Repr

/-- One operation with its expected outcome. -/
structure Scenario where
  name : String
  /-- The group under which the scenario is counted. -/
  group : String
  op : Operator
  operands : List Value
  /-- The type of the destination in which the result is stored, if there is one. -/
  assign : Option IntType
  expect : Expectation
  deriving DecidableEq, Repr

/-- Scenarios in the order in which they are run. -/
structure Matrix where
  scenarios : List Scenario
  deriving DecidableEq, Repr

namespace Scenario

/-- The operation as an expression: a symbol before one operand or between two, a call otherwise. -/
def expression (op : Operator) : List Value → String
  | [operand] => op.symbol ++ operand.literal
  | [left, right] => left.literal ++ " " ++ op.symbol ++ " " ++ right.literal
  | operands => op.name ++ "(" ++ ", ".intercalate (operands.map Value.literal) ++ ")"

/-- The scenario as an expression, after an arrow from its destination if it has one. -/
def describe (s : Scenario) : String :=
  match s.assign with
  | some target => target.name ++ " <- " ++ expression s.op s.operands
  | none => expression s.op s.operands

end Scenario

end FixedWidth
