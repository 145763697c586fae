import FixedWidth.IntType

/-!
# Values

A value is a bit pattern together with the type that says how to read it. `toInt` is its integer
meaning; `resize` moves a pattern to another type by truncating it or by extending it in the way
its own type asks for; `convert` allows only the moves that can never change the integer.

In the program: the engine's `TypedValue` with `typ`, `from_bits` (`ofBits`), `bits` (`pattern`),
`extend_to_64` (`extended`), `resize`, `convert` (`convert?`), `is_zero` and `is_negative`. There a
value is one of four variants, each around a machine integer; here it is a type with as many bits as
the type has, and nothing is said four times. `toInt` and `ofInt` have no counterpart: they are what
the machine integers mean.
-/

namespace FixedWidth

/-- A bit pattern of the width of its type. -/
structure Value where
  type : IntType
  bits : BitVec type.width
  deriving DecidableEq, Repr

namespace Value

instance : Inhabited Value := ⟨⟨.i32, 0⟩⟩

/-- The integer that a value stands for. -/
def toInt (v : Value) : Int :=
  if v.type.signed then v.bits.toInt else v.bits.toNat

/-- The bit pattern read as a natural number. -/
def pattern (v : Value) : Nat := v.bits.toNat

/-- The value of the low bits of a pattern of 64 bits. -/
def ofBits (type : IntType) (pattern : BitVec 64) : Value :=
  ⟨type, pattern.setWidth type.width⟩

/-- The value of a type that stands for an integer, reduced into the range of the type. -/
def ofInt (type : IntType) (n : Int) : Value :=
  ⟨type, BitVec.ofInt type.width n⟩

/-- The pattern as 64 bits: copies of the sign in front where the type has one, zeros otherwise. -/
def extended (v : Value) : BitVec 64 :=
  if v.type.signed then v.bits.signExtend 64 else v.bits.setWidth 64

/-- The same pattern in another type, extended as its own type asks for, then truncated. -/
def resize (v : Value) (target : IntType) : Value :=
  ofBits target v.extended

/-- Whether a value of one type can be stored in another without a look at the value: the target
holds every integer of the source. -/
def canHold (source target : IntType) : Bool :=
  source = target ||
    match source, target with
    | .i32, .i64 | .u32, .i64 | .u32, .u64 => true
    | _, _ => false

/-- The value in another type, where every value of its own type has a place there. -/
def convert? (v : Value) (target : IntType) : Option Value :=
  if canHold v.type target then some (v.resize target) else none

/-- Whether no bit is set. -/
def isZero (v : Value) : Bool := v.bits == 0

/-- Whether the value stands for an integer below zero. -/
def isNegative (v : Value) : Bool := v.type.signed && v.bits.msb

@[simp] theorem type_ofBits (type : IntType) (pattern : BitVec 64) :
    (ofBits type pattern).type = type := rfl

@[simp] theorem type_resize (v : Value) (target : IntType) : (v.resize target).type = target := rfl

@[simp] theorem type_ofInt (type : IntType) (n : Int) : (ofInt type n).type = type := rfl

end Value

end FixedWidth
