/-!
# Integer types

The four types of fixed width in which values live. A type is told by its width and by whether its
top bit is a sign; everything else here (range, masks, names) follows from these two.
`mem_all` says that the list of types has none missing, `ofName?_name` that names are read back.

In the program: the engine's `NumericType` with `ALL`, `width`, `is_signed`, `mask`, `shift_mask`,
`name` and `from_name`. `ofName?` searches the list of all types, where `from_name` repeats the four
names, so that no name can be forgotten. `minValue` and `maxValue` say outright what the program
leaves to its machine integers.
-/

namespace FixedWidth

/-- An integer type of 32 or 64 bits, in two's complement where it is signed. -/
inductive IntType where
  | i32
  | u32
  | i64
  | u64
  deriving DecidableEq, Repr, Inhabited

namespace IntType

/-- Every type, in the order in which tables and messages list them. -/
def all : List IntType := [i32, u32, i64, u64]

/-- The number of bits of a value. -/
def width : IntType → Nat
  | i32 | u32 => 32
  | i64 | u64 => 64

/-- Whether the top bit of a pattern is its sign. -/
def signed : IntType → Bool
  | i32 | i64 => true
  | u32 | u64 => false

/-- The name under which literals, files and commands speak of the type. -/
def name : IntType → String
  | i32 => "i32"
  | u32 => "u32"
  | i64 => "i64"
  | u64 => "u64"

/-- The name of the container that holds a value of the type, as the log shows it. -/
def containerName : IntType → String
  | i32 => "Int32"
  | u32 => "UInt32"
  | i64 => "Int64"
  | u64 => "UInt64"

/-- The type of a given name. Names are exact: no blanks, no other case. -/
def ofName? (text : String) : Option IntType :=
  all.find? (·.name == text)

/-- The pattern of all ones. -/
def mask (type : IntType) : Nat := (BitVec.allOnes type.width).toNat

/-- What a shift distance is reduced to: shifting never moves by a whole width. -/
def shiftMask (type : IntType) : Nat := type.width - 1

/-- The number of bytes of a value. -/
def byteCount (type : IntType) : Nat := type.width / 8

/-- The least integer of the type. -/
def minValue (type : IntType) : Int :=
  if type.signed then (BitVec.intMin type.width).toInt else 0

/-- The greatest integer of the type. -/
def maxValue (type : IntType) : Int :=
  if type.signed then (BitVec.intMax type.width).toInt else type.mask

/-- No type is missing from the list of all. -/
theorem mem_all (type : IntType) : type ∈ all := by
  cases type <;> decide

@[simp] theorem ofName?_name (type : IntType) : ofName? type.name = some type := by
  cases type <;> decide

theorem name_of_ofName? {text : String} {type : IntType} (h : ofName? text = some type) :
    type.name = text := by
  simpa using List.find?_some h

/-- Types are told apart by their names. -/
theorem name_injective {a b : IntType} (h : a.name = b.name) : a = b := by
  have hb := ofName?_name b
  rw [← h, ofName?_name] at hb
  exact Option.some.inj hb

theorem width_pos (type : IntType) : 0 < type.width := by
  cases type <;> decide

theorem width_le_64 (type : IntType) : type.width ≤ 64 := by
  cases type <;> decide

end IntType

end FixedWidth
