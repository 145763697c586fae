import FixedWidth.Promotion

/-!
# Promotion tables as text

The rules of promotion laid out for a reader: one row per type, the cells of a row six characters
wide, and an `x` where there is no result.

In the program: `table_command`, `write_binary_table` and `cell` of the command line. There every
cell is written as soon as it is made; here the cells are made first, and `Command.performTable`
writes them.
-/

namespace FixedWidth.Promotion

/-- A cell, filled up with blanks to six characters. -/
def cell (text : String) : String :=
  text ++ String.ofList (List.replicate (6 - text.length) ' ')

/-- The cell of a result. -/
def resultCell (result : Option IntType) : String :=
  cell (match result with
    | some type => type.name
    | none => "x")

/-- The rows of a table of binary rules: the type on the left of each row, that on the right above
each column. -/
def binaryRows (title : String) (rules : List BinaryRule) : List (List String) :=
  (cell title :: IntType.all.map fun right => cell right.name) ::
    IntType.all.map fun left =>
      cell left.name :: (rules.filter (·.left = left)).map fun rule => resultCell rule.result

/-- The operators of the unary rules, in the order of their columns. -/
def unaryOperators : List Operator := [.neg, .not]

/-- The rows of the table of unary rules. -/
def unaryRows : List (List String) :=
  (cell "unary" :: unaryOperators.map fun op => cell op.name) ::
    IntType.all.map fun operand =>
      cell operand.name :: unaryOperators.map fun op => resultCell (lookupUnary op operand)

/-- The three tables, with a row without cells between any two of them. -/
def tableRows : List (List String) :=
  binaryRows "arith" arithmeticRules ++ [[]] ++ binaryRows "shift" shiftRules ++ [[]] ++ unaryRows

end FixedWidth.Promotion
