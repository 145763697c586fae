import FixedWidth.Literal
import FixedWidth.Operator

/-!
# Errors of evaluation

Why an evaluation has no value. Each cause carries what its message needs, and belongs to one of
five kinds, by which a scenario may expect it.

In the program: the engine's `EngineError` with its display text (`message`) and `kind`, and
`ErrorKind` with its name in a file (`name`) and its debug text (`label`). There an unrepresentable
operation carries the names of the operand types as one text; here it carries the types, and
`message` joins their names.
-/

namespace FixedWidth

/-- The kinds of errors, without the particulars of a case. -/
inductive ErrorKind where
  | divisionByZero
  | unrepresentable
  | invalidConversion
  | arityMismatch
  | invalidLiteral
  deriving DecidableEq, Repr

namespace ErrorKind

/-- Every kind, in the order in which messages list them. -/
def all : List ErrorKind :=
  [divisionByZero, unrepresentable, invalidConversion, arityMismatch, invalidLiteral]

/-- The name of the kind in a scenario file. -/
def name : ErrorKind → String
  | divisionByZero => "divide_by_zero"
  | unrepresentable => "unrepresentable_operation"
  | invalidConversion => "invalid_conversion"
  | arityMismatch => "arity_mismatch"
  | invalidLiteral => "invalid_literal"

/-- The name of the kind in a report. -/
def label : ErrorKind → String
  | divisionByZero => "DivideByZero"
  | unrepresentable => "UnrepresentableOperation"
  | invalidConversion => "InvalidConversion"
  | arityMismatch => "ArityMismatch"
  | invalidLiteral => "InvalidLiteral"

/-- The kind of a given name. -/
def ofName? (text : String) : Option ErrorKind :=
  all.find? (·.name == text)

@[simp] theorem ofName?_name (kind : ErrorKind) : ofName? kind.name = some kind := by
  cases kind <;> decide

theorem name_of_ofName? {text : String} {kind : ErrorKind} (h : ofName? text = some kind) :
    kind.name = text := by
  simpa using List.find?_some h

end ErrorKind

/-- Why there is no value. -/
inductive EvalError where
  /-- The divisor is zero; the types are those of the operands as they were given. -/
  | divisionByZero (op : Operator) (left right : IntType)
  /-- No type can hold the results of the operator on operands of these types. -/
  | unrepresentable (op : Operator) (operands : List IntType)
  /-- The destination cannot hold every value of the source. -/
  | invalidConversion (source target : IntType)
  /-- The operator takes another number of operands. -/
  | arityMismatch (op : Operator) (expected actual : Nat)
  /-- An operand is no literal. -/
  | invalidLiteral (cause : LiteralError)
  deriving DecidableEq, Repr

namespace EvalError

/-- The kind that an error belongs to. -/
def kind : EvalError → ErrorKind
  | divisionByZero .. => .divisionByZero
  | unrepresentable .. => .unrepresentable
  | invalidConversion .. => .invalidConversion
  | arityMismatch .. => .arityMismatch
  | invalidLiteral .. => .invalidLiteral

/-- The error in words. -/
def message : EvalError → String
  | divisionByZero op left right =>
    "Division by zero: " ++ op.name ++ " on (" ++ left.name ++ ", " ++ right.name ++ ")"
  | unrepresentable op operands =>
    "Unrepresentable operation: " ++ op.name ++ " on (" ++
      ", ".intercalate (operands.map IntType.name) ++ ")"
  | invalidConversion source target =>
    "Invalid conversion: " ++ source.name ++ " to " ++ target.name
  | arityMismatch op expected actual =>
    "Arity mismatch: " ++ op.name ++ " takes " ++ Numeral.decimalText expected ++
      " operand(s), got " ++ Numeral.decimalText actual
  | invalidLiteral cause => cause.message

end EvalError

end FixedWidth
