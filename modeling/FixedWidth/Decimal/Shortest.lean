/-!
# Shortest decimals

The fewest decimal digits that tell a positive binary fraction apart from its neighbours. A finite
double is a whole number times a power of two; the reals that round to it form an interval around
it, with its ends exactly where the whole number is even. For one digit, two digits and so on, the
two points of the decimal grid next to the number are tried, and the first grid with a point inside
the interval gives the digits: of two points the nearer, of two equally near the one with an even
last digit.

In the program: the way in which its JSON library writes a double, as the shortest decimal that is
read back as the same double. There this is done by tables of powers of ten in machine words; here
by the definition, in whole numbers.
-/

namespace FixedWidth.Decimal

/-- The leading bit of a mantissa, which is not stored: `2 ^ 52`. -/
def hiddenBit : Nat := 4503599627370496

/-- A positive number `digits * 10 ^ exponent`. -/
structure Scientific where
  digits : Nat
  exponent : Int
  deriving DecidableEq, Repr

/-- A number and the ends of an interval around it, over one denominator. -/
structure Interval where
  low : Nat
  middle : Nat
  high : Nat
  denominator : Nat
  closed : Bool

namespace Interval

/-- The reals that round to `mantissa * 2 ^ exponent`. Below a power of two the numbers lie closer
together, so the lower end is nearer there. -/
def around (mantissa : Nat) (exponent : Int) : Interval :=
  let up := Nat.pow 2 (exponent - 2).toNat
  let lowGap := if mantissa = hiddenBit ∧ exponent > -1074 then 1 else 2
  { low := (4 * mantissa - lowGap) * up
    middle := 4 * mantissa * up
    high := (4 * mantissa + 2) * up
    denominator := Nat.pow 2 (2 - exponent).toNat
    closed := mantissa % 2 = 0 }

/-- Whether the grid point `d * 10 ^ k` lies in the interval. -/
def contains (i : Interval) (d : Nat) (k : Int) : Bool :=
  let point := d * Nat.pow 10 k.toNat * i.denominator
  let scale := Nat.pow 10 (-k).toNat
  if i.closed then i.low * scale ≤ point && point ≤ i.high * scale
  else i.low * scale < point && point < i.high * scale

/-- Whether the middle is nearer to the grid point `d + 1` than to `d`, the even one in a tie. -/
def prefersNext (i : Interval) (d : Nat) (k : Int) : Bool :=
  let step := Nat.pow 10 k.toNat * i.denominator
  let twice := 2 * i.middle * Nat.pow 10 (-k).toNat
  twice > (2 * d + 1) * step || (twice = (2 * d + 1) * step && d % 2 = 1)

/-- The grid point with spacing `10 ^ k` that stands for the middle, if one lies in the interval. -/
def pointAt? (i : Interval) (k : Int) : Option Scientific :=
  let d := i.middle * Nat.pow 10 (-k).toNat / (Nat.pow 10 k.toNat * i.denominator)
  match i.contains d k, i.contains (d + 1) k with
  | true, true => some ⟨if i.prefersNext d k then d + 1 else d, k⟩
  | true, false => some ⟨d, k⟩
  | false, true => some ⟨d + 1, k⟩
  | false, false => none

/-- The exponent of the leading decimal digit of the middle. -/
def leading (i : Interval) : Int :=
  let below := (List.range 400).find? fun j => i.denominator ≤ i.middle * Nat.pow 10 j
  match below with
  | some (j + 1) => -(j + 1 : Int)
  | _ =>
    (((List.range 400).takeWhile fun j =>
      i.denominator * Nat.pow 10 (j + 1) ≤ i.middle).length : Int)

/-- The point of the coarsest grid that has one in the interval. Seventeen digits always do. -/
def shortest (i : Interval) : Scientific :=
  ((List.range 17).findSome? fun n : Nat => i.pointAt? (i.leading - (n : Int))).getD ⟨0, 0⟩

end Interval

/-- Without zeros at the end of the digits; the bound is the number of digits there can be. -/
def stripZeros : (bound : Nat) → Scientific → Scientific
  | 0, s => s
  | bound + 1, s =>
    if s.digits ≠ 0 ∧ s.digits % 10 = 0 then stripZeros bound ⟨s.digits / 10, s.exponent + 1⟩
    else s

/-- The shortest decimal of a positive finite double, from its bits. -/
def ofDouble (bits : UInt64) : Scientific :=
  let fraction : Nat := bits.toNat % hiddenBit
  let biased : Nat := bits.toNat / hiddenBit % 2048
  let interval :=
    if biased = 0 then Interval.around fraction (-1074)
    else Interval.around (hiddenBit + fraction) ((biased : Int) - 1075)
  stripZeros 20 interval.shortest

end FixedWidth.Decimal
