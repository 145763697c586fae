import FixedWidth.Value
import Mathlib.Data.Int.ModEq

/-!
# The integers of a type

A value stands for an integer in the range of its type, and its pattern is that integer modulo two
to the width. Both directions are used everywhere, so they are stated once:

- `Value.toInt_inRange` and `IntType.InRange.eq_of_modEq`: the integer of a value is the only one
  of its class in the range of the type;
- `Value.eq_ofInt_iff`: a value is `ofInt t n` exactly when it has type `t` and its integer is
  congruent to `n`;
- `Value.resize_eq_ofInt`: bringing a value to another type reduces its integer, whatever the two
  widths and the two signs are.

With these no later proof looks at a bit: an operation on patterns is an operation on integers
under `BitVec.ofInt`, which is a ring map.
-/

namespace FixedWidth

/-- Congruent integers that are closer to each other than the modulus are one. -/
theorem eq_of_modEq_of_abs_lt {m n modulus : Int} (h : m ≡ n [ZMOD modulus])
    (hclose : |n - m| < modulus) : m = n := by
  have hzero : n - m = 0 := Int.eq_zero_of_abs_lt_dvd (Int.modEq_iff_dvd.mp h) hclose
  omega

namespace IntType

/-- Whether an integer lies in the range of the type. -/
def InRange (type : IntType) (n : Int) : Prop := type.minValue ≤ n ∧ n ≤ type.maxValue

instance (type : IntType) (n : Int) : Decidable (type.InRange n) :=
  inferInstanceAs (Decidable (_ ∧ _))

/-- The least integer in two's complement. -/
theorem minValue_of_signed {type : IntType} (h : type.signed = true) :
    type.minValue = -2 ^ (type.width - 1) := by
  cases type <;> first | rfl | exact absurd h (by decide)

theorem maxValue_of_signed {type : IntType} (h : type.signed = true) :
    type.maxValue = 2 ^ (type.width - 1) - 1 := by
  cases type <;> first | rfl | exact absurd h (by decide)

theorem minValue_of_unsigned {type : IntType} (h : type.signed = false) : type.minValue = 0 := by
  rw [minValue, h, if_neg (by decide)]

theorem maxValue_of_unsigned {type : IntType} (h : type.signed = false) :
    type.maxValue = 2 ^ type.width - 1 := by
  cases type <;> first | rfl | exact absurd h (by decide)

theorem minValue_nonpos (t : IntType) : t.minValue ≤ 0 := by cases t <;> decide

theorem maxValue_nonneg (t : IntType) : 0 ≤ t.maxValue := by cases t <;> decide

theorem inRange_zero (t : IntType) : t.InRange 0 := ⟨t.minValue_nonpos, t.maxValue_nonneg⟩

theorem minValue_le_maxValue (t : IntType) : t.minValue ≤ t.maxValue :=
  Int.le_trans t.minValue_nonpos t.maxValue_nonneg

theorem inRange_minValue (t : IntType) : t.InRange t.minValue :=
  ⟨Int.le_refl _, t.minValue_le_maxValue⟩

theorem inRange_maxValue (t : IntType) : t.InRange t.maxValue :=
  ⟨t.minValue_le_maxValue, Int.le_refl _⟩

/-- There are as many integers in the range as there are patterns. -/
theorem maxValue_sub_minValue (type : IntType) :
    type.maxValue - type.minValue = 2 ^ type.width - 1 := by
  cases type <;> rfl

/-- The least integer of a signed type and its negative are told apart by every bit above the width,
and by none of the bits within it. -/
theorem neg_minValue_modEq_iff {type : IntType} (h : type.signed = true) {bits : Nat} :
    -type.minValue ≡ type.minValue [ZMOD 2 ^ bits] ↔ bits ≤ type.width := by
  have htwice : type.minValue - -type.minValue = -2 ^ type.width := by
    rw [minValue_of_signed h]
    cases type <;> rfl
  rw [Int.modEq_iff_dvd, htwice, Int.dvd_neg]
  exact_mod_cast Nat.pow_dvd_pow_iff_le_right (by decide : 1 < 2)

/-- The least integer has the pattern of its negative. -/
theorem neg_minValue_modEq {type : IntType} (h : type.signed = true) :
    -type.minValue ≡ type.minValue [ZMOD 2 ^ type.width] :=
  (neg_minValue_modEq_iff h).mpr (Nat.le_refl _)

/-- No two integers of the range have the same pattern. -/
theorem InRange.eq_of_modEq {type : IntType} {m n : Int} (hm : type.InRange m)
    (hn : type.InRange n) (h : m ≡ n [ZMOD 2 ^ type.width]) : m = n := by
  have hspan := type.maxValue_sub_minValue
  obtain ⟨hm1, hm2⟩ := hm
  obtain ⟨hn1, hn2⟩ := hn
  -- The whole range spans less than the modulus.
  refine eq_of_modEq_of_abs_lt h ?_
  rw [abs_lt]
  omega

end IntType

/-! ## Patterns of integers -/

/-- Two integers have the same pattern exactly when they are congruent. -/
theorem ofInt_eq_ofInt_iff {w : Nat} {m n : Int} :
    BitVec.ofInt w m = BitVec.ofInt w n ↔ m ≡ n [ZMOD 2 ^ w] := by
  have hpos : (0 : Int) < ((2 ^ w : Nat) : Int) := by exact_mod_cast Nat.two_pow_pos w
  have hm := Int.emod_nonneg m (Int.ne_of_gt hpos)
  have hn := Int.emod_nonneg n (Int.ne_of_gt hpos)
  rw [← BitVec.toNat_inj, BitVec.toNat_ofInt, BitVec.toNat_ofInt, Int.ModEq]
  push_cast at hm hn ⊢
  omega

/-- Truncating the pattern of an integer gives its pattern of fewer bits. -/
theorem setWidth_ofInt {v w : Nat} (h : w ≤ v) (n : Int) :
    (BitVec.ofInt v n).setWidth w = BitVec.ofInt w n := by
  have hdvd : (2 ^ w : Int) ∣ 2 ^ v := pow_dvd_pow 2 h
  have hn : 0 ≤ n % 2 ^ v := Int.emod_nonneg n (Int.ne_of_gt (Int.pow_pos (by decide)))
  rw [← BitVec.toNat_inj, BitVec.toNat_setWidth, BitVec.toNat_ofInt, BitVec.toNat_ofInt]
  push_cast
  -- Reducing twice is reducing once, since the smaller modulus divides the larger.
  have hcast : (((n % 2 ^ v).toNat % 2 ^ w : Nat) : Int) = n % 2 ^ w := by
    push_cast
    rw [Int.toNat_of_nonneg hn, Int.emod_emod_of_dvd n hdvd]
  omega

namespace Value

/-- On a signed type the pattern is read in two's complement. -/
theorem toInt_of_signed {v : Value} (h : v.type.signed = true) : v.toInt = v.bits.toInt := by
  rw [toInt, h, if_pos rfl]

theorem toInt_of_unsigned {v : Value} (h : v.type.signed = false) : v.toInt = v.bits.toNat := by
  rw [toInt, h, if_neg (by decide)]

/-- The pattern of a value is that of its integer. -/
theorem bits_eq_ofInt (v : Value) : v.bits = BitVec.ofInt v.type.width v.toInt := by
  cases hs : v.type.signed with
  | true => rw [toInt_of_signed hs, BitVec.ofInt_toInt]
  | false => rw [toInt_of_unsigned hs, BitVec.ofInt_natCast, BitVec.ofNat_toNat, BitVec.setWidth_eq]

/-- A value stands for an integer of its type. -/
theorem toInt_inRange (v : Value) : v.type.InRange v.toInt := by
  cases hs : v.type.signed with
  | true =>
    rw [IntType.InRange, IntType.minValue_of_signed hs, IntType.maxValue_of_signed hs,
      toInt_of_signed hs]
    exact ⟨BitVec.le_toInt v.bits, Int.le_sub_one_of_lt BitVec.toInt_lt⟩
  | false =>
    rw [IntType.InRange, IntType.minValue_of_unsigned hs, IntType.maxValue_of_unsigned hs,
      toInt_of_unsigned hs]
    have hlt : (v.bits.toNat : Int) < 2 ^ v.type.width := by exact_mod_cast v.bits.isLt
    exact ⟨Int.natCast_nonneg _, Int.le_sub_one_of_lt hlt⟩

/-- A value is the one of type `t` for an integer exactly when it has that type and its own integer
is congruent to that integer. -/
theorem eq_ofInt_iff {v : Value} {t : IntType} {n : Int} :
    v = ofInt t n ↔ v.type = t ∧ v.toInt ≡ n [ZMOD 2 ^ t.width] := by
  rw [← ofInt_eq_ofInt_iff]
  refine ⟨?_, ?_⟩
  · intro h
    subst h
    exact ⟨rfl, (bits_eq_ofInt (ofInt t n)).symm⟩
  · intro h
    obtain ⟨rfl, h⟩ := h
    rw [← bits_eq_ofInt] at h
    rw [ofInt, ← h]

/-- A value is told by its type and its integer. -/
theorem ext_toInt {u v : Value} (ht : u.type = v.type) (h : u.toInt = v.toInt) : u = v := by
  have hv : v = ofInt v.type v.toInt := eq_ofInt_iff.mpr ⟨rfl, Int.ModEq.rfl⟩
  rw [hv, eq_ofInt_iff]
  exact ⟨ht, h ▸ Int.ModEq.rfl⟩

/-- Reduction keeps the integer modulo two to the width. -/
theorem toInt_ofInt_modEq (t : IntType) (n : Int) : (ofInt t n).toInt ≡ n [ZMOD 2 ^ t.width] :=
  (eq_ofInt_iff.mp rfl).2

/-- Reduction brings together what is congruent, and nothing else. -/
theorem ofInt_eq_iff_modEq {t : IntType} {m n : Int} :
    ofInt t m = ofInt t n ↔ m ≡ n [ZMOD 2 ^ t.width] := by
  constructor
  · intro h
    exact (toInt_ofInt_modEq t m).symm.trans (eq_ofInt_iff.mp h).2
  · intro h
    exact eq_ofInt_iff.mpr ⟨rfl, (toInt_ofInt_modEq t m).trans h⟩

/-- An integer of the range survives. -/
theorem toInt_ofInt {t : IntType} {n : Int} (h : t.InRange n) : (ofInt t n).toInt = n :=
  (toInt_inRange (ofInt t n)).eq_of_modEq h (toInt_ofInt_modEq t n)

/-- Every integer of a signed type but the least has a mirror image in the type, and the least comes
back as itself. -/
theorem toInt_ofInt_neg {t : IntType} (hs : t.signed = true) {n : Int} (hn : t.InRange n) :
    (ofInt t (-n)).toInt = if n = t.minValue then n else -n := by
  by_cases hmin : n = t.minValue
  · rw [if_pos hmin]
    refine (toInt_inRange (ofInt t (-n))).eq_of_modEq hn ((toInt_ofInt_modEq t (-n)).trans ?_)
    rw [hmin]
    exact IntType.neg_minValue_modEq hs
  · rw [if_neg hmin]
    have hlow := IntType.minValue_of_signed hs
    have hhigh := IntType.maxValue_of_signed hs
    obtain ⟨h1, h2⟩ := hn
    exact toInt_ofInt ⟨by omega, by omega⟩

/-- A value is the reduction of its own integer. -/
@[simp] theorem ofInt_toInt (v : Value) : ofInt v.type v.toInt = v :=
  (eq_ofInt_iff.mpr ⟨rfl, Int.ModEq.rfl⟩).symm

/-- The pattern as a number stands for the same value as the integer. -/
theorem ofInt_pattern (v : Value) : ofInt v.type v.pattern = v := by
  rw [ofInt, pattern, BitVec.ofInt_natCast, BitVec.ofNat_toNat, BitVec.setWidth_eq]

/-- The pattern as a number is congruent to the integer. -/
theorem pattern_modEq_toInt (v : Value) : (v.pattern : Int) ≡ v.toInt [ZMOD 2 ^ v.type.width] :=
  (eq_ofInt_iff.mp (ofInt_pattern v).symm).2.symm

/-! ## Moving to another type -/

/-- A signed pattern is extended by its sign and an unsigned one by zeros, and either way the
integer stays. -/
theorem extended_eq_ofInt (v : Value) : v.extended = BitVec.ofInt 64 v.toInt := by
  cases hs : v.type.signed with
  | true =>
    rw [toInt_of_signed hs, extended, hs, if_pos rfl]
    rfl
  | false =>
    rw [toInt_of_unsigned hs, extended, hs, if_neg (by decide), BitVec.ofInt_natCast,
      BitVec.ofNat_toNat]

/-- However a pattern is extended or truncated, the new one is that of the integer. -/
theorem bits_resize (v : Value) (t : IntType) :
    (v.resize t).bits = BitVec.ofInt t.width v.toInt := by
  show v.extended.setWidth t.width = _
  rw [extended_eq_ofInt, setWidth_ofInt t.width_le_64]

/-- Resizing is reduction of the integer into the range of the target. -/
theorem resize_eq_ofInt (v : Value) (t : IntType) : v.resize t = ofInt t v.toInt :=
  congrArg (Value.mk t) (bits_resize v t)

/-- Reducing to more bits first makes no difference. -/
theorem resize_ofInt {t T : IntType} (h : t.width ≤ T.width) (n : Int) :
    (ofInt T n).resize t = ofInt t n := by
  rw [resize_eq_ofInt, ofInt_eq_iff_modEq]
  exact (toInt_ofInt_modEq T n).of_dvd (pow_dvd_pow 2 h)

/-- A value is its own resizing. -/
theorem resize_self (v : Value) : v.resize v.type = v := by
  rw [resize_eq_ofInt, ofInt_toInt]

/-- Resizing keeps the integer modulo two to the new width. -/
theorem toInt_resize_modEq (v : Value) (t : IntType) :
    (v.resize t).toInt ≡ v.toInt [ZMOD 2 ^ t.width] := by
  rw [resize_eq_ofInt]
  exact toInt_ofInt_modEq t v.toInt

/-- A target that is at least as wide takes nothing but zero to zero. -/
theorem toInt_resize_eq_zero_iff {v : Value} {t : IntType} (h : v.type.width ≤ t.width) :
    (v.resize t).toInt = 0 ↔ v.toInt = 0 := by
  have hmod := toInt_resize_modEq v t
  have hrange := v.toInt_inRange
  have hspan := v.type.maxValue_sub_minValue
  have hpow : (2 : Int) ^ v.type.width ≤ 2 ^ t.width := by
    exact_mod_cast Nat.pow_le_pow_right (by decide) h
  have hmin := v.type.minValue_nonpos
  have hmax := v.type.maxValue_nonneg
  refine ⟨?_, ?_⟩
  · intro hzero
    -- Nothing in the narrower range is congruent to zero at the target but zero itself.
    rw [hzero] at hmod
    refine eq_of_modEq_of_abs_lt hmod.symm ?_
    rw [abs_lt]
    obtain ⟨h1, h2⟩ := hrange
    omega
  · intro hzero
    rw [resize_eq_ofInt, hzero]
    exact toInt_ofInt t.inRange_zero

end Value

end FixedWidth
