import FixedWidth.Json.Layout
import FixedWidth.Scenario.Reader

/-!
# Writing scenarios

Every scenario has one written form: an object of its fields in order, without blanks, literals in
their canonical form, and no field for a destination that is not there.

In the program: the writers that are derived for the same types, and the fields that are left out by
their attributes. There a value is written straight into the text; here it is a list of tokens
first.
-/

namespace FixedWidth

open Json

/-- The tokens of a type. -/
def IntType.tokens (type : IntType) : List Token := Layout.text type.name

/-- The tokens of an operator. -/
def Operator.tokens (op : Operator) : List Token := Layout.text op.name

/-- The tokens of a kind of errors. -/
def ErrorKind.tokens (kind : ErrorKind) : List Token := Layout.text kind.name

/-- The tokens of a value. -/
def Value.tokens (v : Value) : List Token := Layout.text v.literal

/-- The tokens of an expectation. -/
def Expectation.tokens : Expectation → List Token
  | value v => v.tokens
  | error kind => Layout.object [Layout.member "error" kind.tokens]

namespace Scenario

/-- The tokens of a field of the scenario; none for a destination that is not there. -/
def fieldTokens (s : Scenario) : Field → Option (List Token)
  | .name => some (Layout.text s.name)
  | .group => some (Layout.text s.group)
  | .op => some s.op.tokens
  | .operands => some (Layout.array (s.operands.map Value.tokens))
  | .assign => s.assign.map IntType.tokens
  | .expect => some s.expect.tokens

/-- The tokens of a scenario. -/
def tokens (s : Scenario) : List Token :=
  Layout.object (Field.all.filterMap fun field =>
    (s.fieldTokens field).map (Layout.member field.key))

end Scenario

namespace Matrix

/-- The tokens of a matrix. -/
def tokens (m : Matrix) : List Token :=
  Layout.object [Layout.member scenariosKey (Layout.array (m.scenarios.map Scenario.tokens))]

/-- The text of a matrix. -/
def print (m : Matrix) : String := Layout.print m.tokens

end Matrix

end FixedWidth
