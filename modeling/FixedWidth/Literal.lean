import FixedWidth.Numeral
import FixedWidth.Text.Blank
import FixedWidth.Value

/-!
# Literals

The notation `type:value` for values. Reading accepts blanks around either half, underscores among
the digits, a sign, and hexadecimal digits after `0x` as a bit pattern; writing knows one form, the
name of the type and the decimal integer.

In the program: `from_str` (`read`), `from_strings` (`ofHalves`), `to_strings`, the display text
(`literal`), `to_hex` and `write_immediate` of `TypedValue`. There the complaint about a literal is
a finished text; here it is a cause, and `message` puts it into words. `hex` and `immediate` take
the pattern apart as a number, where the program asks the machine integer for its bytes.
-/

namespace FixedWidth

/-- Why a text is not a literal. -/
inductive LiteralError where
  /-- The text has no colon. -/
  | noColon (text : String)
  /-- The half before the colon names no type. -/
  | unknownType (typeName value : String)
  /-- The half after the colon is no numeral of the type. -/
  | badNumeral (type : IntType) (value : String) (cause : NumeralError)
  /-- The bit pattern has ones above the width of the type. -/
  | tooWide (type : IntType) (value : String)
  deriving DecidableEq, Repr

namespace LiteralError

/-- What is wrong with the literal, in words. -/
def detail : LiteralError → String
  | noColon text => "expected type:value, got " ++ text
  | unknownType typeName value => "unknown type in " ++ typeName ++ ":" ++ value
  | badNumeral type value cause => type.name ++ ":" ++ value ++ ": " ++ cause.message
  | tooWide type value => type.name ++ ":" ++ value ++ ": bit pattern wider than type"

/-- The message for a bad literal. -/
def message (e : LiteralError) : String := "Invalid literal: " ++ e.detail

end LiteralError

namespace Literal

/-- The text without its underscores. -/
def withoutUnderscores (text : List Char) : List Char := text.filter (· ≠ '_')

/-- The value of a type whose bit pattern is written by hexadecimal digits. -/
def ofPattern (type : IntType) (value : String) (digits : List Char) :
    Except LiteralError Value :=
  match Numeral.read 16 0 Numeral.greatestWord (withoutUnderscores digits) with
  | .error cause => .error (.badNumeral type value cause)
  | .ok n => if n > type.mask then .error (.tooWide type value) else .ok (.ofInt type n)

/-- The value of a type whose integer is written in decimal. -/
def ofDecimal (type : IntType) (value : String) (digits : List Char) :
    Except LiteralError Value :=
  match Numeral.read 10 type.minValue type.maxValue (withoutUnderscores digits) with
  | .error cause => .error (.badNumeral type value cause)
  | .ok n => .ok (.ofInt type n)

/-- The value of a type that the text after the colon writes. The prefix `0x` counts only where it
stands before any underscore is taken out. -/
def ofType (type : IntType) (value : String) : Except LiteralError Value :=
  match value.toList with
  | '0' :: 'x' :: digits => ofPattern type value digits
  | '0' :: 'X' :: digits => ofPattern type value digits
  | digits => ofDecimal type value digits

/-- The value that the two halves of a literal write. Nothing is trimmed here. -/
def ofHalves (typeName value : String) : Except LiteralError Value :=
  match IntType.ofName? typeName with
  | none => .error (.unknownType typeName value)
  | some type => ofType type value

/-- Splits a text at its first colon. -/
def splitAtColon : List Char → Option (List Char × List Char)
  | [] => none
  | c :: rest =>
    if c = ':' then some ([], rest)
    else (splitAtColon rest).map fun halves => (c :: halves.1, halves.2)

/-- The value that a literal writes. -/
def read (text : String) : Except LiteralError Value :=
  match splitAtColon text.toList with
  | none => .error (.noColon text)
  | some (typeName, value) =>
    ofHalves (String.ofList (Text.trim typeName)) (String.ofList (Text.trim value))

end Literal

namespace Value

/-- The integer of a value in decimal. -/
def decimal (v : Value) : String := String.ofList (Numeral.signedDecimal v.toInt)

/-- The canonical literal of a value. -/
def literal (v : Value) : String := v.type.name ++ ":" ++ v.decimal

/-- The bit pattern in lower-case hexadecimal digits, as many as the width asks for. -/
def hex (v : Value) : String :=
  "0x" ++ String.ofList (Numeral.hex (v.type.width / 4) v.pattern)

/-- The value as it is named in a report: its literal and, in brackets, its pattern. -/
def described (v : Value) : String := v.literal ++ " (" ++ v.hex ++ ")"

/-- The bytes of a number, least significant first. -/
def littleEndian : (count : Nat) → Nat → List UInt8
  | 0, _ => []
  | count + 1, n => UInt8.ofNat n :: littleEndian count (n / 256)

/-- The bytes under which an instruction carries the value, least significant first. -/
def immediate (v : Value) : List UInt8 := littleEndian v.type.byteCount v.pattern

end Value

end FixedWidth
