import FixedWidth.Promotion

/-!
# Evaluation

What the operators compute. The arithmetic operators first bring both operands to the promoted type
and then work on bit patterns of its width, so sums, differences and negations wrap; division
truncates toward zero and is the only operation that looks at a value to fail. Shifts mask their
distance to the width of the shifted value.

In the program: the engine's arithmetic, with `promote`, `add`, `sub`, `div`, `rem`, `divide` and
`neg`; its bit operations, with `shift_distance` (`shiftCount`), `shl`, `shr` and `not`; and its own
`evaluate_binary`, `evaluate_unary`, `evaluate` and `evaluate_into`. Where the form differs:

- The program computes sums and differences on words of 64 bits and keeps the low bits of the
  result; here the patterns have the width of the promoted type from the start.
- `divide` goes by the four types there, and by whether the promoted type has a sign here, as one
  operation on patterns serves both widths.
- `evaluate_into` always has a destination, and without one `evaluate` is called in its place;
  `evaluateInto` makes this choice itself.
- `evaluate` also tells the log, which here is left to `evaluateLogged`.
-/

namespace FixedWidth

/-- Two operands brought to one type. -/
structure Promoted where
  type : IntType
  left : BitVec type.width
  right : BitVec type.width

namespace Value

/-- Both operands, resized to the result type of the operator. -/
def promote (op : Operator) (left right : Value) : Except EvalError Promoted :=
  (Promotion.binaryResult op left.type right.type).map fun type =>
    ⟨type, (left.resize type).bits, (right.resize type).bits⟩

/-- The sum modulo two to the width. -/
def add (left right : Value) : Except EvalError Value :=
  (promote .add left right).map fun p => ⟨p.type, p.left + p.right⟩

/-- The difference modulo two to the width. -/
def sub (left right : Value) : Except EvalError Value :=
  (promote .sub left right).map fun p => ⟨p.type, p.left - p.right⟩

/-- A division, by one operation on signed patterns and another on unsigned ones. A divisor of zero
is an error that names the types of the operands as they were given. -/
def divide (op : Operator) (onSigned onUnsigned : {w : Nat} → BitVec w → BitVec w → BitVec w)
    (left right : Value) : Except EvalError Value :=
  match promote op left right with
  | .error e => .error e
  | .ok p =>
    -- Promotion takes no value but zero to zero, so the promoted divisor can be asked.
    if p.right = 0 then .error (.divisionByZero op left.type right.type)
    else if p.type.signed then .ok ⟨p.type, onSigned p.left p.right⟩
    else .ok ⟨p.type, onUnsigned p.left p.right⟩

/-- The quotient, truncated toward zero. The least signed value divided by `-1` is itself. -/
def div (left right : Value) : Except EvalError Value :=
  divide .div BitVec.sdiv BitVec.udiv left right

/-- The remainder of the truncated quotient; it has the sign of the dividend. -/
def mod (left right : Value) : Except EvalError Value :=
  divide .mod BitVec.srem BitVec.umod left right

/-- How far a value is shifted: the low bits of the distance, whatever its sign. -/
def shiftCount (value distance : Value) : Nat :=
  distance.pattern &&& value.type.shiftMask

/-- The value shifted left; zeros come in. -/
def shl (value distance : Value) : Except EvalError Value :=
  (Promotion.binaryResult .shl value.type distance.type).map fun _ =>
    ⟨value.type, value.bits <<< shiftCount value distance⟩

/-- The value shifted right; copies of the sign come in on signed types, zeros on unsigned ones. -/
def shr (value distance : Value) : Except EvalError Value :=
  (Promotion.binaryResult .shr value.type distance.type).map fun _ =>
    ⟨value.type,
      if value.type.signed then value.bits.sshiftRight (shiftCount value distance)
      else value.bits >>> shiftCount value distance⟩

/-- Zero minus the value, in the result type of negation. -/
def neg (operand : Value) : Except EvalError Value :=
  (Promotion.unaryResult .neg operand.type).map fun type => ⟨type, -(operand.resize type).bits⟩

/-- The value with every bit of its own width flipped. -/
def not (operand : Value) : Except EvalError Value :=
  (Promotion.unaryResult .not operand.type).map fun _ => ⟨operand.type, ~~~operand.bits⟩

/-- Masking the distance takes it modulo the width, which is a power of two. -/
theorem shiftCount_eq_mod (value distance : Value) :
    shiftCount value distance = distance.pattern % value.type.width := by
  have h : ∀ k, distance.pattern &&& (2 ^ k - 1) = distance.pattern % 2 ^ k :=
    fun k => Nat.and_two_pow_sub_one_eq_mod _ k
  unfold shiftCount IntType.shiftMask
  cases value.type
  · exact h 5
  · exact h 5
  · exact h 6
  · exact h 6

/-- No value is shifted by its width or more. -/
theorem shiftCount_lt (value distance : Value) : shiftCount value distance < value.type.width := by
  rw [shiftCount_eq_mod]
  exact Nat.mod_lt _ value.type.width_pos

end Value

/-- The result of an operation, with the operator that made it. -/
structure Evaluated where
  op : Operator
  value : Value
  deriving DecidableEq, Repr

/-- An operator applied to two operands. -/
def evaluateBinary (op : Operator) (left right : Value) : Except EvalError Value :=
  match op with
  | .add => left.add right
  | .sub => left.sub right
  | .div => left.div right
  | .mod => left.mod right
  | .shl => left.shl right
  | .shr => left.shr right
  | .neg | .not => .error (.arityMismatch op 1 2)

/-- An operator applied to one operand. -/
def evaluateUnary (op : Operator) (operand : Value) : Except EvalError Value :=
  match op with
  | .neg => operand.neg
  | .not => operand.not
  | _ => .error (.arityMismatch op 2 1)

/-- An operator applied to its operands, however many there are. -/
def evaluate (op : Operator) : List Value → Except EvalError Evaluated
  | [operand] => (evaluateUnary op operand).map (⟨op, ·⟩)
  | [left, right] => (evaluateBinary op left right).map (⟨op, ·⟩)
  | operands => .error (.arityMismatch op op.arity operands.length)

namespace Value

/-- The value stored in a destination of some type. -/
def convert (v : Value) (target : IntType) : Except EvalError Value :=
  match v.convert? target with
  | none => .error (.invalidConversion v.type target)
  | some converted => .ok converted

end Value

namespace Evaluated

/-- The result stored in a destination, or left as it is where there is none. -/
def storeIn (result : Evaluated) : Option IntType → Except EvalError Evaluated
  | none => .ok result
  | some target => (result.value.convert target).map (⟨result.op, ·⟩)

end Evaluated

/-- An operator applied to its operands, and the result stored in a destination if there is one. -/
def evaluateInto (op : Operator) (operands : List Value) (target : Option IntType) :
    Except EvalError Evaluated :=
  match evaluate op operands with
  | .error e => .error e
  | .ok result => result.storeIn target

end FixedWidth
