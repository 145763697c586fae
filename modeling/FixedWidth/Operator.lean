/-!
# Operators

The eight operators, their names, and the symbols under which expressions show them.

In the program: the engine's `Operator` with `ALL`, `arity`, `name`, `symbol` and `from_str`
(`ofName?`), in the same form.
-/

namespace FixedWidth

/-- An operator on values. -/
inductive Operator where
  | add
  | sub
  | div
  | mod
  | shl
  | shr
  | neg
  | not
  deriving DecidableEq, Repr, Inhabited

namespace Operator

/-- Every operator, in the order in which tables and messages list them. -/
def all : List Operator := [add, sub, div, mod, shl, shr, neg, not]

/-- The number of operands that the operator takes. -/
def arity : Operator → Nat
  | neg | not => 1
  | _ => 2

/-- The name under which files and commands speak of the operator. -/
def name : Operator → String
  | add => "add"
  | sub => "sub"
  | div => "div"
  | mod => "mod"
  | shl => "shl"
  | shr => "shr"
  | neg => "neg"
  | not => "not"

/-- The symbol in a rendered expression. Subtraction and negation share one. -/
def symbol : Operator → String
  | add => "+"
  | sub | neg => "-"
  | div => "/"
  | mod => "%"
  | shl => "<<"
  | shr => ">>"
  | not => "~"

/-- The operator of a given name. Names are exact. -/
def ofName? (text : String) : Option Operator :=
  all.find? (·.name == text)

/-- No operator is missing from the list of all. -/
theorem mem_all (op : Operator) : op ∈ all := by
  cases op <;> decide

@[simp] theorem ofName?_name (op : Operator) : ofName? op.name = some op := by
  cases op <;> decide

theorem name_of_ofName? {text : String} {op : Operator} (h : ofName? text = some op) :
    op.name = text := by
  simpa using List.find?_some h

theorem name_injective {a b : Operator} (h : a.name = b.name) : a = b := by
  have hb := ofName?_name b
  rw [← h, ofName?_name] at hb
  exact Option.some.inj hb

end Operator

end FixedWidth
