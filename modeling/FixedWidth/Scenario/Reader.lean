import FixedWidth.Json.Tree
import FixedWidth.Scenario

/-!
# Reading scenarios

Scenarios and matrices as JSON. Both are objects, whose unknown fields are skipped, or arrays of
the same fields in a fixed order. A field that comes twice is refused as soon as its name is read
again; a field that is missing, when the object ends. `room` is the number of brackets that may
still be opened, counted down only where a value of unknown shape is kept.

In the program: `parse_matrix`, and the readers that are derived for `MatrixFile`, `Scenario`,
`Expectation`, `Operator`, `NumericType` and `ErrorKind` from their declarations and the attributes
of their fields. The derived code keeps one variable for each field; here they are the fields of a
`Draft`. An expectation is untagged there, and so is read as a whole and then tried as a literal and
as an object with the field `error`: `Expectation.ofTree?` is the two trials.
-/

namespace FixedWidth

open Json

/-- The name of a type. -/
def IntType.reader : Reader IntType :=
  Reader.choice (IntType.all.map IntType.name) IntType.ofName?

/-- The name of an operator. -/
def Operator.reader : Reader Operator :=
  Reader.choice (Operator.all.map Operator.name) Operator.ofName?

/-- The name of a kind of errors. -/
def ErrorKind.reader : Reader ErrorKind :=
  Reader.choice (ErrorKind.all.map ErrorKind.name) ErrorKind.ofName?

/-- A literal. -/
def Value.reader : Reader Value := do
  match Literal.read (← Reader.text) with
  | .ok v => pure v
  | .error cause => Reader.fail (.mismatch (.invalidLiteral cause))

/-! ## Expectations -/

/-- The kind of errors that a JSON value names. -/
def ErrorKind.ofTree? : Tree → Option ErrorKind
  | .text name => ofName? name
  | .object [(name, .null)] => ofName? name
  | _ => none

/-- The expectation that a JSON value holds: a literal, or an object whose only field `error` names
a kind; other fields say nothing. -/
def Expectation.ofTree? : Tree → Option Expectation
  | .text literal => (Literal.read literal).toOption.map .value
  | .object members =>
    match members.filter (·.1 = "error") with
    | [(_, kind)] => (ErrorKind.ofTree? kind).map .error
    | _ => none
  | _ => none

/-- An expectation. Its value is read as a whole before it is looked at. -/
def Expectation.reader (room : Nat) : Reader Expectation := do
  match ofTree? (← Tree.reader .kept room) with
  | some expectation => pure expectation
  | none => Reader.fail (.mismatch (.noVariant "Expectation"))

/-! ## Scenarios -/

namespace Scenario

/-- The fields of a scenario, in order. -/
inductive Field where
  | name
  | group
  | op
  | operands
  | assign
  | expect
  deriving DecidableEq, Repr

namespace Field

/-- Every field. -/
def all : List Field := [name, group, op, operands, assign, expect]

/-- The key under which the field stands. -/
def key : Field → String
  | name => "name"
  | group => "group"
  | op => "op"
  | operands => "operands"
  | assign => "assign"
  | expect => "expect"

/-- The field of a given key. -/
def ofKey? (text : String) : Option Field :=
  all.find? (·.key == text)

/-- No field is missing from the list of all. -/
theorem mem_all (field : Field) : field ∈ all := by
  cases field <;> decide

@[simp] theorem ofKey?_key (field : Field) : ofKey? field.key = some field := by
  cases field <;> decide

theorem key_of_ofKey? {text : String} {field : Field} (h : ofKey? text = some field) :
    field.key = text := by
  simpa using List.find?_some h

end Field

/-- How a complaint calls a scenario. -/
def kind : String := "struct Scenario"

/-- A scenario of which some fields are known. -/
structure Draft where
  name : Option String := none
  group : Option String := none
  op : Option Operator := none
  operands : Option (List Value) := none
  assign : Option (Option IntType) := none
  expect : Option Expectation := none

namespace Draft

/-- Whether a field is known. -/
def has (draft : Draft) : Field → Bool
  | .name => draft.name.isSome
  | .group => draft.group.isSome
  | .op => draft.op.isSome
  | .operands => draft.operands.isSome
  | .assign => draft.assign.isSome
  | .expect => draft.expect.isSome

/-- The draft with the value of one more field. -/
def fill (room : Nat) (draft : Draft) : Field → Reader Draft
  | .name => return { draft with name := some (← Reader.text) }
  | .group => return { draft with group := some (← Reader.text) }
  | .op => return { draft with op := some (← Operator.reader) }
  | .operands => return { draft with operands := some (← Reader.array Value.reader) }
  | .assign => return { draft with assign := some (← Reader.optional IntType.reader) }
  | .expect => return { draft with expect := some (← Expectation.reader room) }

/-- The draft with one more member of an object, whose key has been read. -/
def member (room : Nat) (draft : Draft) (key : String) : Reader Draft := do
  match Field.ofKey? key with
  | none =>
    Reader.expect .colon
    Tree.skip
    pure draft
  | some field =>
    -- The second mention is refused before its value is looked at.
    if draft.has field then Reader.fail (.mismatch (.duplicateField key))
    else
      Reader.expect .colon
      draft.fill room field

/-- A field that a scenario cannot do without. -/
def need {α : Type} (field : Field) : Option α → Except Mismatch α
  | some x => .ok x
  | none => .error (.missingField field.key)

/-- The scenario of a finished draft. -/
def finish (draft : Draft) : Except Mismatch Scenario := do
  let name ← need .name draft.name
  let op ← need .op draft.op
  let operands ← need .operands draft.operands
  let expect ← need .expect draft.expect
  pure ⟨name, draft.group.getD "", op, operands, draft.assign.getD none, expect⟩

end Draft

/-- The rest of a scenario that is written as an object. -/
def objectRest (room : Nat) : Reader Scenario := do
  let draft ← Reader.objectRest .kept (Draft.member room) {}
  match draft.finish with
  | .ok scenario => pure scenario
  | .error cause => Reader.fail (.mismatch cause)

/-- The complaint about an array that ends before all fields are read. -/
def tooShort {α : Type} (length : Nat) : Reader α :=
  Reader.fail (.mismatch (.invalidLength length "struct Scenario with 6 elements"))

/-- The rest of a scenario that is written as an array of its fields. -/
def arrayRest (room : Nat) : Reader Scenario := do
  let name ← Reader.element true Reader.text (tooShort 0)
  let group ← Reader.element false Reader.text (pure "")
  let op ← Reader.element false Operator.reader (tooShort 2)
  let operands ← Reader.element false (Reader.array Value.reader) (tooShort 3)
  let assign ← Reader.element false (Reader.optional IntType.reader) (pure none)
  let expect ← Reader.element false (Expectation.reader room) (tooShort 5)
  Reader.expect .closeSquare
  pure ⟨name, group, op, operands, assign, expect⟩

/-- A scenario. -/
def reader (room : Nat) : Reader Scenario
  | [] => .error Reader.endOfText
  | .openCurly :: rest => objectRest (room - 1) rest
  | .openSquare :: rest => arrayRest (room - 1) rest
  | found :: _ => .error (Reader.unexpected kind found)

end Scenario

/-! ## Matrices -/

namespace Matrix

/-- The key of the only field of a matrix. -/
def scenariosKey : String := "scenarios"

/-- The list of scenarios of a matrix. -/
def scenariosReader (room : Nat) : Reader (List Scenario) :=
  Reader.array (Scenario.reader (room - 1))

/-- One more member of a matrix, whose key has been read. -/
def member (room : Nat) (soFar : Option (List Scenario)) (key : String) :
    Reader (Option (List Scenario)) := do
  if key = scenariosKey then
    if soFar.isSome then Reader.fail (.mismatch (.duplicateField key))
    else
      Reader.expect .colon
      some <$> scenariosReader room
  else
    Reader.expect .colon
    Tree.skip
    pure soFar

/-- The rest of a matrix that is written as an object. -/
def objectRest (room : Nat) : Reader Matrix := do
  match ← Reader.objectRest .kept (member room) none with
  | some scenarios => pure ⟨scenarios⟩
  | none => Reader.fail (.mismatch (.missingField scenariosKey))

/-- The complaint about an array without the list of scenarios. -/
def tooShort {α : Type} : Reader α :=
  Reader.fail (.mismatch (.invalidLength 0 "struct MatrixFile with 1 element"))

/-- The rest of a matrix that is written as an array. -/
def arrayRest (room : Nat) : Reader Matrix := do
  let scenarios ← Reader.element true (scenariosReader room) tooShort
  Reader.expect .closeSquare
  pure ⟨scenarios⟩

/-- A matrix. -/
def reader (room : Nat) : Reader Matrix
  | [] => .error Reader.endOfText
  | .openCurly :: rest => objectRest (room - 1) rest
  | .openSquare :: rest => arrayRest (room - 1) rest
  | found :: _ => .error (Reader.unexpected "struct MatrixFile" found)

/-- The matrix that a text holds. -/
def read (text : String) : Except Json.Error Matrix :=
  (reader Tree.nestingLimit).read text

end Matrix

end FixedWidth
