import FixedWidth.Decimal.Shortest
import FixedWidth.Numeral

/-!
# Numbers of a JSON text

No document of this library holds a number, but one may stand where something else belongs, and the
complaint then shows it. A whole number that fits 64 bits keeps its digits; any other number is a
double, got from its first digits and a power of ten.

In the program: how its JSON library reads numbers and shows them in a complaint. The library does
not always come to the nearest double, and `scale` follows it step by step.
-/

namespace FixedWidth.Json

/-- A number, as a reader that needs it sees it. -/
inductive Number where
  | whole (n : Int)
  | real (x : Float)
  deriving DecidableEq

namespace Number

/-- The parts of a numeral, digits from left to right. -/
structure Parts where
  negative : Bool
  integer : List Nat
  fraction : List Nat
  exponentNegative : Bool
  exponent : List Nat
  deriving DecidableEq

/-- How far a whole number of 64 bits may go below zero. -/
def lowerLimit : Nat := UInt64.size / 2

/-- Appends digits to a number as long as it stays within 64 bits; what is left over comes
second. -/
def absorb (n : Nat) : List Nat → Nat × List Nat
  | [] => (n, [])
  | d :: rest => if n * 10 + d > Numeral.greatestWord then (n, d :: rest) else absorb (n * 10 + d) rest

/-- The power of ten as a double. -/
def powerOfTen (k : Nat) : Float := Float.ofScientific 1 false k

/-- A double times a power of ten; `none` where the result has no finite double. -/
def scale (x : Float) (exponent : Int) : Option Float :=
  if exponent ≥ 0 then
    if exponent ≤ 308 then
      let product := x * powerOfTen exponent.toNat
      if product.isInf then none else some product
    else if x == 0 then some x
    else none
  else if exponent ≥ -308 then some (x / powerOfTen (-exponent).toNat)
  else if x == 0 then some x
  else scale (x / powerOfTen 308) (exponent + 308)
termination_by (-exponent).toNat
decreasing_by omega

/-- The greatest exponent that is taken at its word. -/
def exponentLimit : Nat := UInt32.size / 2 - 1

/-- The double that significant digits and a decimal exponent stand for. -/
def real? (parts : Parts) (significand : Nat) (start : Int) : Option Number :=
  let written := parts.exponent.foldl (fun n d => n * 10 + d) 0
  let sign : Float → Number := fun x => .real (if parts.negative then -x else x)
  if written > exponentLimit then
    if significand ≠ 0 ∧ !parts.exponentNegative then none else some (sign 0)
  else
    let exponent := if parts.exponentNegative then start - written else start + written
    (scale significand.toUInt64.toFloat exponent).map sign

/-- The number that a numeral stands for; `none` if it is too large for a double. -/
def ofParts (parts : Parts) : Option Number :=
  let (n, excess) := absorb 0 parts.integer
  if parts.fraction.isEmpty && parts.exponent.isEmpty && excess.isEmpty then
    if !parts.negative then some (.whole n)
    -- Zero with a sign is a double, as no whole number keeps the sign.
    else if n = 0 ∨ n > lowerLimit then some (.real (-n.toUInt64.toFloat))
    else some (.whole (-n))
  else
    let (significand, dropped) := absorb n parts.fraction
    let used := parts.fraction.length - dropped.length
    real? parts significand ((excess.length : Int) - used)

/-- A double in decimal: in full from five places behind the point to sixteen before it, with a
signed exponent outside of these. -/
def realText (x : Float) : List Char :=
  let sign : List Char := if x.toBits >>> 63 = 1 then ['-'] else []
  let bits := x.toBits <<< 1 >>> 1
  if bits = 0 then sign ++ ['0', '.', '0']
  else
    let s := Decimal.ofDouble bits
    let digits := Numeral.decimal s.digits
    let point := (digits.length : Int) + s.exponent
    let body :=
      if 0 ≤ s.exponent ∧ point ≤ 16 then
        digits ++ List.replicate s.exponent.toNat '0' ++ ['.', '0']
      else if 0 < point ∧ point ≤ 16 then
        digits.take point.toNat ++ ['.'] ++ digits.drop point.toNat
      else if -5 < point ∧ point ≤ 0 then
        ['0', '.'] ++ List.replicate (-point).toNat '0' ++ digits
      else
        let tail := digits.drop 1
        digits.take 1 ++ (if tail.isEmpty then [] else '.' :: tail) ++
          ['e', if point > 0 then '+' else '-'] ++ Numeral.decimal (point - 1).natAbs
    sign ++ body

/-- The number in decimal. -/
def text : Number → List Char
  | whole n => Numeral.signedDecimal n
  | real x => realText x

end Number

end FixedWidth.Json
