import FixedWidth.Proofs.Division
import FixedWidth.Proofs.Shifting

/-!
# Division by powers of two

A shift to the right divides by a power of two, but it rounds down where division truncates. The two
differ by one, and only where an integer below zero is no multiple of the power (`tdiv_two_pow`).

This holds as long as the power is an integer of the type. A one that is shifted into the sign bit
is the least integer and no power, so there is one power less in the range of a signed type than
there are distances (`IntType.inRange_two_pow_iff`).

> `div_two_pow_by_shr`
-/

namespace FixedWidth

namespace IntType

/-- How many powers of two there are in the range of the type. -/
def powers (t : IntType) : Nat := if t.signed then t.width - 1 else t.width

theorem powers_le_width (t : IntType) : t.powers ≤ t.width := by
  cases t <;> decide

/-- One more than the greatest integer is the first power that is too large. -/
theorem maxValue_eq_two_pow (t : IntType) : t.maxValue = 2 ^ t.powers - 1 := by
  cases t <;> rfl

/-- The powers in the range of a type are those below its sign. -/
theorem inRange_two_pow_iff {t : IntType} {k : Nat} : t.InRange (2 ^ k) ↔ k < t.powers := by
  have hmin := t.minValue_nonpos
  have hpos := two_pow_pos k
  have hpow : (2 : Int) ^ k < 2 ^ t.powers ↔ k < t.powers := by
    exact_mod_cast Nat.pow_lt_pow_iff_right (by decide : 1 < 2)
  rw [← hpow, InRange, maxValue_eq_two_pow]
  omega

end IntType

/-! ## The two roundings -/

/-- Truncating is rounding down, and one more below zero unless nothing is rounded. -/
theorem tdiv_two_pow (n : Int) (k : Nat) :
    n.tdiv (2 ^ k) =
      if 0 ≤ n ∨ n.tmod (2 ^ k) = 0 then n / 2 ^ k else n / 2 ^ k + 1 := by
  rw [Int.tdiv_eq_ediv, Int.sign_eq_one_of_pos (two_pow_pos k)]
  simp only [Int.dvd_iff_tmod_eq_zero]
  split
  next => exact Int.add_zero _
  next => rfl

/-- From zero on, what is shifted out and filled up with zeros again is missing by the remainder. -/
theorem sub_ediv_mul_two_pow {n : Int} (hn : 0 ≤ n) (k : Nat) :
    n - n / 2 ^ k * 2 ^ k = n.tmod (2 ^ k) := by
  rw [Int.tmod_eq_emod_of_nonneg hn, Int.emod_def, Int.mul_comm]

namespace Value

variable {a : Value} {k : Nat}

theorem toInt_ofInt_one (t : IntType) : (ofInt t 1).toInt = 1 :=
  toInt_ofInt (by cases t <;> decide)

/-- A one that is shifted to the left is a power of two, or its pattern in the sign bit. -/
theorem shl_one {t : IntType} (hk : k < t.width) :
    (ofInt t 1).shl (distance k) = .ok (ofInt t (2 ^ k)) := by
  rw [shl_distance, toInt_ofInt_one, type_ofInt, Nat.mod_eq_of_lt hk, Int.one_mul]

/-- A power in the range is a value of the type. -/
theorem toInt_ofInt_two_pow {t : IntType} (hk : k < t.powers) :
    (ofInt t (2 ^ k)).toInt = 2 ^ k :=
  toInt_ofInt (IntType.inRange_two_pow_iff.mpr hk)

/-- Division by a power in the range has a value, as the power is not zero. -/
theorem div_two_pow (hk : k < a.type.powers) :
    a.div (ofInt a.type (2 ^ k)) = .ok (ofInt a.type (a.toInt.tdiv (2 ^ k))) := by
  rw [div_of_type rfl (type_ofInt a.type _), toInt_ofInt_two_pow hk,
    if_neg (Int.ne_of_gt (two_pow_pos k))]

theorem mod_two_pow (hk : k < a.type.powers) :
    a.mod (ofInt a.type (2 ^ k)) = .ok (ofInt a.type (a.toInt.tmod (2 ^ k))) := by
  rw [mod_of_type rfl (type_ofInt a.type _), toInt_ofInt_two_pow hk,
    if_neg (Int.ne_of_gt (two_pow_pos k))]

/-- Shifted to the right and back, an integer has lost what it is more than a multiple. -/
theorem sub_shr_shl (hk : k < a.type.width) (ha : 0 ≤ a.toInt) :
    ((ofInt a.type (a.toInt / 2 ^ k)).shl (distance k) >>= a.sub) =
      .ok (ofInt a.type (a.toInt.tmod (2 ^ k))) := by
  have hback : (ofInt a.type (a.toInt / 2 ^ k)).shl (distance k) =
      .ok (ofInt a.type (a.toInt / 2 ^ k * 2 ^ k)) := by
    rw [shl_distance, toInt_ofInt_ediv, type_ofInt, Nat.mod_eq_of_lt hk]
  rw [hback]
  show a.sub (ofInt a.type (a.toInt / 2 ^ k * 2 ^ k)) = _
  rw [sub_of_type rfl (type_ofInt a.type _), ← sub_ediv_mul_two_pow ha]
  exact congrArg Except.ok (ofInt_eq_iff_modEq.mpr ((toInt_ofInt_modEq _ _).sub_left _))

/-- **Division by a power of two is a shift to the right, with one added where that rounded a
negative integer down.** On unsigned types the remainder is what the shift loses. -/
theorem div_two_pow_by_shr (a : Value) {k : Nat} (hk : k < a.type.powers) :
    ∃ power quotient remainder shifted,
      (ofInt a.type 1).shl (distance k) = .ok power ∧
      a.div power = .ok quotient ∧
      a.mod power = .ok remainder ∧
      a.shr (distance k) = .ok shifted ∧
      (0 ≤ a.toInt ∨ remainder.toInt = 0 → quotient = shifted) ∧
      (¬ (0 ≤ a.toInt ∨ remainder.toInt = 0) →
        shifted.add (ofInt a.type 1) = .ok quotient) ∧
      (a.type.signed = false → (shifted.shl (distance k) >>= a.sub) = .ok remainder) := by
  have hwidth : k < a.type.width := Nat.lt_of_lt_of_le hk a.type.powers_le_width
  have hshr : a.shr (distance k) = .ok (ofInt a.type (a.toInt / 2 ^ k)) := by
    rw [shr_distance, Nat.mod_eq_of_lt hwidth]
  refine ⟨_, _, _, _, shl_one hwidth, div_two_pow hk, mod_two_pow hk, hshr, ?_⟩
  rw [toInt_ofInt (a.toInt_inRange.tmod_inRange _), tdiv_two_pow]
  refine ⟨?_, ?_, ?_⟩
  · intro hexact
    rw [if_pos hexact]
  · intro hround
    -- Neither operand of the sum is reduced, so its integers are the quotient and one.
    have hadd := add_of_type (type_ofInt a.type (a.toInt / 2 ^ k)) (type_ofInt a.type 1)
    rw [if_neg hround, hadd, toInt_ofInt_ediv, toInt_ofInt_one]
  · intro hunsigned
    have hnonneg : 0 ≤ a.toInt := IntType.minValue_of_unsigned hunsigned ▸ a.toInt_inRange.1
    exact sub_shr_shl hwidth hnonneg

/-- A negative `i32` that is no multiple, the least `i64` by the greatest power of its type, and a
`u32` with its top bit set. -/
theorem div_two_pow_by_shr_rounding :
    (1 < IntType.powers .i32 ∧ Value.shr ⟨.i32, 0xfffffff9⟩ (distance 1) = .ok ⟨.i32, 0xfffffffc⟩ ∧
      Value.add ⟨.i32, 0xfffffffc⟩ (ofInt .i32 1) = .ok ⟨.i32, 0xfffffffd⟩ ∧
      Value.div ⟨.i32, 0xfffffff9⟩ ⟨.i32, 2⟩ = .ok ⟨.i32, 0xfffffffd⟩) ∧
    (62 < IntType.powers .i64 ∧
      Value.div ⟨.i64, 0x8000000000000000⟩ ⟨.i64, 0x4000000000000000⟩ =
        Value.shr ⟨.i64, 0x8000000000000000⟩ (distance 62)) ∧
    (31 < IntType.powers .u32 ∧ ∃ remainder,
      Value.mod ⟨.u32, 0xfffffff9⟩ ⟨.u32, 0x80000000⟩ = .ok remainder ∧
      (Value.shl ⟨.u32, 1⟩ (distance 31) >>= Value.sub ⟨.u32, 0xfffffff9⟩) = .ok remainder) := by
  refine ⟨⟨by decide, ?_⟩, ⟨by decide, ?_⟩, ⟨by decide, ?_⟩⟩
  · obtain ⟨power, quotient, remainder, shifted, hp, hq, hr, hs, -, hround, -⟩ :=
      div_two_pow_by_shr ⟨.i32, 0xfffffff9⟩ (k := 1) (by decide)
    obtain rfl : (⟨.i32, 2⟩ : Value) = power := Except.ok.inj hp
    obtain rfl : (⟨.i32, 0xffffffff⟩ : Value) = remainder := Except.ok.inj hr
    obtain rfl : (⟨.i32, 0xfffffffc⟩ : Value) = shifted := Except.ok.inj hs
    have hsum := hround (by decide)
    obtain rfl : (⟨.i32, 0xfffffffd⟩ : Value) = quotient := Except.ok.inj hsum
    exact ⟨hs, hsum, hq⟩
  · obtain ⟨power, quotient, remainder, shifted, hp, hq, hr, hs, hexact, -, -⟩ :=
      div_two_pow_by_shr ⟨.i64, 0x8000000000000000⟩ (k := 62) (by decide)
    obtain rfl : (⟨.i64, 0x4000000000000000⟩ : Value) = power := Except.ok.inj hp
    obtain rfl : (⟨.i64, 0⟩ : Value) = remainder := Except.ok.inj hr
    rw [hq, hs, hexact (.inr (by decide))]
  · obtain ⟨power, _, remainder, shifted, hp, _, hr, hs, -, -, hlost⟩ :=
      div_two_pow_by_shr ⟨.u32, 0xfffffff9⟩ (k := 31) (by decide)
    obtain rfl : (⟨.u32, 0x80000000⟩ : Value) = power := Except.ok.inj hp
    obtain rfl : (⟨.u32, 1⟩ : Value) = shifted := Except.ok.inj hs
    exact ⟨remainder, hr, hlost rfl⟩

end Value

end FixedWidth
