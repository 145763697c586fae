import FixedWidth.EvalError

/-!
# Promotion

Which type the result of an operation has, from the types of its operands alone. The rules stand in
three tables, one row per combination, so that they can be read apart from the arithmetic. A row
without a result marks a combination that no type can serve.

In short: operands of one type keep it; of two widths, the narrow operand goes to the type of the
wide one; `i32` meets `u32` in `i64`; `i64` and `u64` have no common type. A shift keeps the type of
the shifted value and takes an `i32` as distance. Negating a `u32` gives an `i64`, and a `u64` has
no negation.

In the program: the engine's tables `ARITHMETIC_PROMOTIONS`, `SHIFT_PROMOTIONS` and
`UNARY_PROMOTIONS`, row by row, and the functions that look things up in them: `lookup`,
`binary_table`, `arithmetic_promotion`, `binary_result_type`, `unary_result_type` and `result_type`.
A row is a triple there and a structure with named fields here.
-/

namespace FixedWidth

namespace Promotion

/-- The result type of a binary operator on operands of two types, if there is one. -/
structure BinaryRule where
  left : IntType
  right : IntType
  result : Option IntType
  deriving DecidableEq, Repr

/-- The result type of a unary operator on an operand of some type, if there is one. -/
structure UnaryRule where
  op : Operator
  operand : IntType
  result : Option IntType
  deriving DecidableEq, Repr

/-- The rules for addition, subtraction, division and remainder. -/
def arithmeticRules : List BinaryRule :=
  [⟨.i32, .i32, some .i32⟩, ⟨.i32, .u32, some .i64⟩, ⟨.i32, .i64, some .i64⟩,
    ⟨.i32, .u64, some .u64⟩, ⟨.u32, .i32, some .i64⟩, ⟨.u32, .u32, some .u32⟩,
    ⟨.u32, .i64, some .i64⟩, ⟨.u32, .u64, some .u64⟩, ⟨.i64, .i32, some .i64⟩,
    ⟨.i64, .u32, some .i64⟩, ⟨.i64, .i64, some .i64⟩, ⟨.i64, .u64, none⟩,
    ⟨.u64, .i32, some .u64⟩, ⟨.u64, .u32, some .u64⟩, ⟨.u64, .i64, none⟩,
    ⟨.u64, .u64, some .u64⟩]

/-- The rules for shifts: the value on the left, the distance on the right. -/
def shiftRules : List BinaryRule :=
  [⟨.i32, .i32, some .i32⟩, ⟨.i32, .u32, none⟩, ⟨.i32, .i64, none⟩, ⟨.i32, .u64, none⟩,
    ⟨.u32, .i32, some .u32⟩, ⟨.u32, .u32, none⟩, ⟨.u32, .i64, none⟩, ⟨.u32, .u64, none⟩,
    ⟨.i64, .i32, some .i64⟩, ⟨.i64, .u32, none⟩, ⟨.i64, .i64, none⟩, ⟨.i64, .u64, none⟩,
    ⟨.u64, .i32, some .u64⟩, ⟨.u64, .u32, none⟩, ⟨.u64, .i64, none⟩, ⟨.u64, .u64, none⟩]

/-- The rules for negation and complement. -/
def unaryRules : List UnaryRule :=
  [⟨.neg, .i32, some .i32⟩, ⟨.neg, .u32, some .i64⟩, ⟨.neg, .i64, some .i64⟩, ⟨.neg, .u64, none⟩,
    ⟨.not, .i32, some .i32⟩, ⟨.not, .u32, some .u32⟩, ⟨.not, .i64, some .i64⟩,
    ⟨.not, .u64, some .u64⟩]

/-- The result of the first rule for a pair of types. -/
def lookup (rules : List BinaryRule) (left right : IntType) : Option IntType :=
  (rules.find? fun rule => rule.left = left && rule.right = right).bind BinaryRule.result

/-- The result of the first rule for a unary operator and a type. -/
def lookupUnary (op : Operator) (operand : IntType) : Option IntType :=
  (unaryRules.find? fun rule => rule.op = op && rule.operand = operand).bind UnaryRule.result

/-- The rules that govern an operator; a unary one has none among the binary tables. -/
def binaryRules? : Operator → Option (List BinaryRule)
  | .add | .sub | .div | .mod => some arithmeticRules
  | .shl | .shr => some shiftRules
  | .neg | .not => none

/-- The type in which two operands are added, subtracted or divided, if there is one. -/
def arithmetic (left right : IntType) : Option IntType :=
  lookup arithmeticRules left right

/-- The result type of a binary operator. -/
def binaryResult (op : Operator) (left right : IntType) : Except EvalError IntType :=
  match binaryRules? op with
  | none => .error (.arityMismatch op 1 2)
  | some rules =>
    match lookup rules left right with
    | none => .error (.unrepresentable op [left, right])
    | some type => .ok type

/-- The result type of a unary operator. -/
def unaryResult (op : Operator) (operand : IntType) : Except EvalError IntType :=
  if op.arity ≠ 1 then .error (.arityMismatch op 2 1)
  else
    match lookupUnary op operand with
    | none => .error (.unrepresentable op [operand])
    | some type => .ok type

/-- The result type of an operator on operands of the given types, however many there are. -/
def result (op : Operator) : List IntType → Except EvalError IntType
  | [operand] => unaryResult op operand
  | [left, right] => binaryResult op left right
  | operands => .error (.arityMismatch op op.arity operands.length)

/-- A shift keeps the type of the value. -/
theorem lookup_shiftRules {value distance type : IntType}
    (h : lookup shiftRules value distance = some type) : type = value ∧ distance = .i32 := by
  revert h
  cases value <;> cases distance <;> cases type <;> decide

/-- Arithmetic does not ask which operand comes first. -/
theorem arithmetic_comm (left right : IntType) : arithmetic left right = arithmetic right left := by
  cases left <;> cases right <;> decide

/-- No promotion goes to a narrower type. -/
theorem width_le_of_arithmetic {left right type : IntType} (h : arithmetic left right = some type) :
    left.width ≤ type.width ∧ right.width ≤ type.width := by
  revert h
  cases left <;> cases right <;> cases type <;> decide

/-- The tables have one row for every combination. -/
example : arithmeticRules.map (fun rule => (rule.left, rule.right)) =
    IntType.all.flatMap fun left => IntType.all.map fun right => (left, right) := by decide

example : shiftRules.map (fun rule => (rule.left, rule.right)) =
    IntType.all.flatMap fun left => IntType.all.map fun right => (left, right) := by decide

end Promotion

end FixedWidth
