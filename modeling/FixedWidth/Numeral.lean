/-!
# Numerals

Reading an integer from digits in a given radix and range, and writing one. Reading goes from left
to right and stops at the first character that is no digit or that takes the number out of its
range, so a faulty numeral has exactly one diagnosis.

In the program: `from_str_radix` and `parse`, as `from_strings` calls them, and the decimal and
hexadecimal formats. They know the range from the type for which they are called and notice overflow
where it happens; here one function takes the range and compares, which stops at the same character.
-/

namespace FixedWidth

/-- Why a text is not a numeral of a range. -/
inductive NumeralError where
  | empty
  | invalidDigit
  | tooLarge
  | tooSmall
  deriving DecidableEq, Repr

namespace NumeralError

/-- The diagnosis in words. -/
def message : NumeralError → String
  | empty => "cannot parse integer from empty string"
  | invalidDigit => "invalid digit found in string"
  | tooLarge => "number too large to fit in target type"
  | tooSmall => "number too small to fit in target type"

end NumeralError

namespace Numeral

/-- The greatest number of 64 bits. -/
def greatestWord : Nat := UInt64.size - 1

/-- What a character is worth as a digit, for ASCII digits and letters of either case. -/
def digitValue (c : Char) : Option Nat :=
  if '0' ≤ c ∧ c ≤ '9' then some (c.toNat - '0'.toNat)
  else if 'a' ≤ c ∧ c ≤ 'f' then some (c.toNat - 'a'.toNat + 10)
  else if 'A' ≤ c ∧ c ≤ 'F' then some (c.toNat - 'A'.toNat + 10)
  else none

/-- The digit of a radix that a character writes. -/
def digitIn (radix : Nat) (c : Char) : Option Nat :=
  (digitValue c).filter (· < radix)

/-- The digit that writes a number below 16, letters in lower case. -/
def digitChar (d : Nat) : Char :=
  if d < 10 then Char.ofNat ('0'.toNat + d) else Char.ofNat ('a'.toNat + (d - 10))

/-- Goes on reading digits after the number `read`, downwards if `sign` is `-1`. -/
def extend (radix : Nat) (lower upper sign : Int) (read : Int) :
    List Char → Except NumeralError Int
  | [] => .ok read
  | c :: rest =>
    match digitIn radix c with
    | none => .error .invalidDigit
    | some d =>
      let next := read * radix + sign * d
      if next > upper then .error .tooLarge
      else if next < lower then .error .tooSmall
      else extend radix lower upper sign next rest

/-- The integer that a text writes, where it lies between `lower` and `upper`. A plus sign may stand
in front, and a minus sign where the range goes below zero. -/
def read (radix : Nat) (lower upper : Int) : List Char → Except NumeralError Int
  | [] => .error .empty
  | ['+'] => .error .invalidDigit
  | ['-'] => .error .invalidDigit
  | '+' :: digits => extend radix lower upper 1 0 digits
  | '-' :: digits =>
    if lower < 0 then extend radix lower upper (-1) 0 digits else .error .invalidDigit
  | digits => extend radix lower upper 1 0 digits

/-- The decimal digits of a natural number, without leading zeros. -/
def decimal (n : Nat) : List Char :=
  if n < 10 then [digitChar n] else decimal (n / 10) ++ [digitChar (n % 10)]
termination_by n
decreasing_by omega

/-- The decimal digits of an integer, after a minus sign if it is below zero. -/
def signedDecimal (n : Int) : List Char :=
  if n < 0 then '-' :: decimal n.natAbs else decimal n.natAbs

/-- The last `count` hexadecimal digits of a natural number, with leading zeros. -/
def hex : (count : Nat) → Nat → List Char
  | 0, _ => []
  | count + 1, n => hex count (n / 16) ++ [digitChar (n % 16)]

/-- The decimal digits of a natural number, as text. -/
def decimalText (n : Nat) : String := String.ofList (decimal n)

theorem length_hex (count n : Nat) : (hex count n).length = count := by
  induction count generalizing n with
  | zero => rfl
  | succ count ih => simp [hex, ih]

end Numeral

end FixedWidth
