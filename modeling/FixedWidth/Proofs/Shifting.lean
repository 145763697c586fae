import FixedWidth.Proofs.Arithmetic
import Mathlib.Algebra.Order.Ring.Int
import Mathlib.Tactic.LinearCombination

/-!
# Shifts

A shift to the right is a division that rounds down, on signed and unsigned types alike, and a shift
to the left a multiplication that wraps. So two shifts one after the other divide or multiply by the
product of two powers, whatever the sum of their distances (`shrTwice_eq`, `shlTwice_eq`); a single
shift by that sum does the same only as long as the sum is less than the width, since beyond it the
distance is masked.

A shift to the left and back takes the integer to the only one of `w - k` bits that agrees with it
in those bits (`exists_toInt_shl`), and so is undone exactly on the integers of `w - k` bits.

> `shr_floors`
-/

namespace FixedWidth

/-! ## Integers of a number of bits -/

/-- Whether an integer can be written in a number of bits, the first of them a sign if there is
one. -/
def FitsIn (signed : Bool) (bits : Nat) (n : Int) : Prop :=
  if signed then -2 ^ (bits - 1) ≤ n ∧ n < 2 ^ (bits - 1) else 0 ≤ n ∧ n < 2 ^ bits

instance (signed : Bool) (bits : Nat) (n : Int) : Decidable (FitsIn signed bits n) :=
  inferInstanceAs (Decidable (if signed then _ else _))

theorem two_pow_pos (k : Nat) : (0 : Int) < 2 ^ k := Int.pow_pos (by decide)

/-- The integers of a type are those that fit into its width. -/
theorem IntType.inRange_iff_fitsIn {t : IntType} {n : Int} :
    t.InRange n ↔ FitsIn t.signed t.width n := by
  unfold InRange FitsIn
  cases hs : t.signed with
  | true =>
    rw [minValue_of_signed hs, maxValue_of_signed hs, if_pos rfl]
    omega
  | false =>
    rw [minValue_of_unsigned hs, maxValue_of_unsigned hs, if_neg (by decide)]
    omega

/-- No two integers of a number of bits agree in all of them. -/
theorem FitsIn.eq_of_modEq {signed : Bool} {bits : Nat} (hbits : 0 < bits) {m n : Int}
    (hm : FitsIn signed bits m) (hn : FitsIn signed bits n) (h : m ≡ n [ZMOD 2 ^ bits]) :
    m = n := by
  have hhalf : (2 : Int) ^ bits = 2 ^ (bits - 1) * 2 := by
    rw [← pow_succ, Nat.sub_add_cancel hbits]
  refine eq_of_modEq_of_abs_lt h ?_
  rw [abs_lt]
  unfold FitsIn at hm hn
  cases signed with
  | true =>
    rw [if_pos rfl] at hm hn
    omega
  | false =>
    rw [if_neg (by decide)] at hm hn
    omega

/-- A multiple of `2 ^ k` needs `k` bits more. -/
theorem fitsIn_mul_two_pow {signed : Bool} {bits k : Nat} (hk : k < bits) {n : Int} :
    FitsIn signed bits (n * 2 ^ k) ↔ FitsIn signed (bits - k) n := by
  have hpos := two_pow_pos k
  unfold FitsIn
  cases signed with
  | true =>
    have hsplit : (2 : Int) ^ (bits - 1) = 2 ^ (bits - k - 1) * 2 ^ k := by
      rw [← pow_add]
      congr 1
      omega
    rw [if_pos rfl, if_pos rfl, hsplit, ← Int.neg_mul, mul_le_mul_iff_left₀ hpos,
      mul_lt_mul_iff_left₀ hpos]
  | false =>
    have hsplit : (2 : Int) ^ bits = 2 ^ (bits - k) * 2 ^ k := by
      rw [← pow_add, Nat.sub_add_cancel (Nat.le_of_lt hk)]
    rw [if_neg (by decide), if_neg (by decide), hsplit, mul_lt_mul_iff_left₀ hpos,
      mul_nonneg_iff_of_pos_right hpos]

namespace IntType.InRange

variable {t : IntType} {n : Int}

/-- Rounding down brings an integer nearer to zero, or to `-1`. -/
theorem ediv_two_pow (h : t.InRange n) (k : Nat) : t.InRange (n / 2 ^ k) := by
  have hpos := two_pow_pos k
  have hmin := t.minValue_nonpos
  have hmax := t.maxValue_nonneg
  obtain ⟨hlow, hhigh⟩ := h
  rcases Int.le_total 0 n with hn | hn
  · have hle := Int.ediv_le_self (2 ^ k) hn
    have hnonneg := Int.ediv_nonneg hn (Int.le_of_lt hpos)
    exact ⟨by omega, by omega⟩
  · have hle : n ≤ n / 2 ^ k := Int.le_ediv_of_mul_le hpos (mul_le_of_one_le_right hn hpos)
    have hneg : n / 2 ^ k ≤ 0 := Int.ediv_le_of_le_mul hpos (by omega)
    exact ⟨by omega, by omega⟩

/-- Nothing is left of an integer but its sign once it is shifted by a whole width. -/
theorem ediv_two_pow_of_width_le (h : t.InRange n) {k : Nat} (hk : t.width ≤ k) :
    n / 2 ^ k = if n < 0 then -1 else 0 := by
  have hpos := two_pow_pos k
  have hpow : (2 : Int) ^ t.width ≤ 2 ^ k := pow_le_pow_right₀ (by decide) hk
  have hspan := t.maxValue_sub_minValue
  have hmin := t.minValue_nonpos
  have hmax := t.maxValue_nonneg
  obtain ⟨hlow, hhigh⟩ := h
  by_cases hn : n < 0
  · rw [if_pos hn]
    have hge : -1 ≤ n / 2 ^ k := Int.le_ediv_of_mul_le hpos (by omega)
    have hneg : n / 2 ^ k < 0 := Int.ediv_lt_of_lt_mul hpos (by omega)
    omega
  · rw [if_neg hn]
    exact Int.ediv_eq_zero_of_lt (by omega) (by omega)

end IntType.InRange

/-! ## One shift -/

namespace Value

variable {v : Value} {i j k : Nat}

/-- The distance of a shift by a number of places. -/
def distance (k : Nat) : Value := ofInt .i32 k

/-- The floor of a quotient by a power of two stays in the range. -/
theorem toInt_ofInt_ediv (v : Value) (k : Nat) :
    (ofInt v.type (v.toInt / 2 ^ k)).toInt = v.toInt / 2 ^ k :=
  toInt_ofInt (v.toInt_inRange.ediv_two_pow k)

/-- The number of places is masked to the width. -/
theorem shiftCount_distance (v : Value) (k : Nat) : shiftCount v (distance k) = k % v.type.width := by
  have hmod : (distance k).toInt ≡ k [ZMOD v.type.width] := by
    refine (toInt_ofInt_modEq .i32 k).of_dvd ?_
    cases v.type <;> decide
  rw [shiftCount_eq_emod rfl, hmod.eq]
  omega

/-- A shift to the right divides and rounds down, at the distance modulo the width. -/
theorem shr_distance (v : Value) (k : Nat) :
    v.shr (distance k) = .ok (ofInt v.type (v.toInt / 2 ^ (k % v.type.width))) := by
  rw [shr_of_i32 v rfl, shiftCount_distance]

theorem shl_distance (v : Value) (k : Nat) :
    v.shl (distance k) = .ok (ofInt v.type (v.toInt * 2 ^ (k % v.type.width))) := by
  rw [shl_of_i32 v rfl, shiftCount_distance]

/-! ## Two shifts -/

/-- The value shifted right by one number of places, and the result by another. -/
def shrTwice (v : Value) (i j : Nat) : Except EvalError Value :=
  v.shr (distance i) >>= (·.shr (distance j))

/-- The value shifted left by one number of places, and the result by another. -/
def shlTwice (v : Value) (i j : Nat) : Except EvalError Value :=
  v.shl (distance i) >>= (·.shl (distance j))

/-- Two shifts to the right divide by both powers, also where the distances add up to the width or
more. -/
theorem shrTwice_eq (v : Value) (hi : i < v.type.width) (hj : j < v.type.width) :
    v.shrTwice i j = .ok (ofInt v.type (v.toInt / 2 ^ (i + j))) := by
  have hfirst : v.shr (distance i) = .ok (ofInt v.type (v.toInt / 2 ^ i)) := by
    rw [shr_distance, Nat.mod_eq_of_lt hi]
  have hsecond := shr_distance (ofInt v.type (v.toInt / 2 ^ i)) j
  rw [toInt_ofInt_ediv, type_ofInt, Nat.mod_eq_of_lt hj,
    Int.ediv_ediv_of_nonneg (Int.le_of_lt (two_pow_pos i)), ← pow_add] at hsecond
  unfold shrTwice
  rw [hfirst]
  exact hsecond

/-- Two shifts to the left multiply by both powers before anything is reduced for good. -/
theorem shlTwice_eq (v : Value) (hi : i < v.type.width) (hj : j < v.type.width) :
    v.shlTwice i j = .ok (ofInt v.type (v.toInt * 2 ^ (i + j))) := by
  have hfirst : v.shl (distance i) = .ok (ofInt v.type (v.toInt * 2 ^ i)) := by
    rw [shl_distance, Nat.mod_eq_of_lt hi]
  have hsecond := shl_distance (ofInt v.type (v.toInt * 2 ^ i)) j
  rw [type_ofInt, Nat.mod_eq_of_lt hj] at hsecond
  -- What the first shift lost would be lost in the second one, too.
  have hmod := (toInt_ofInt_modEq v.type (v.toInt * 2 ^ i)).mul_right (2 ^ j)
  rw [Int.mul_assoc, ← pow_add] at hmod
  unfold shlTwice
  rw [hfirst]
  show (ofInt v.type (v.toInt * 2 ^ i)).shl (distance j) = _
  rw [hsecond, ofInt_eq_iff_modEq.mpr hmod]

/-- Up to a whole width in all, two shifts are one. -/
theorem shrTwice_of_lt (v : Value) (h : i + j < v.type.width) :
    v.shrTwice i j = v.shr (distance (i + j)) := by
  rw [shrTwice_eq v (by omega) (by omega), shr_distance, Nat.mod_eq_of_lt h]

theorem shlTwice_of_lt (v : Value) (h : i + j < v.type.width) :
    v.shlTwice i j = v.shl (distance (i + j)) := by
  rw [shlTwice_eq v (by omega) (by omega), shl_distance, Nat.mod_eq_of_lt h]

/-- From a whole width on, two shifts to the right leave the sign. -/
theorem shrTwice_of_width_le (v : Value) (hi : i < v.type.width) (hj : j < v.type.width)
    (h : v.type.width ≤ i + j) :
    v.shrTwice i j = .ok (ofInt v.type (if v.toInt < 0 then -1 else 0)) := by
  rw [shrTwice_eq v hi hj, v.toInt_inRange.ediv_two_pow_of_width_le h]

/-- From a whole width on, two shifts to the left leave nothing. -/
theorem shlTwice_of_width_le (v : Value) (hi : i < v.type.width) (hj : j < v.type.width)
    (h : v.type.width ≤ i + j) : v.shlTwice i j = .ok (ofInt v.type 0) := by
  have hmod : v.toInt * 2 ^ (i + j) ≡ 0 [ZMOD 2 ^ v.type.width] :=
    Int.modEq_zero_iff_dvd.mpr ((pow_dvd_pow 2 h).mul_left v.toInt)
  rw [shlTwice_eq v hi hj, ofInt_eq_iff_modEq.mpr hmod]

/-- A single shift by more than the width is a shift by what is left under the mask. -/
theorem shift_masked (v : Value) (h : v.type.width ≤ k) :
    v.shr (distance k) = v.shr (distance (k - v.type.width)) ∧
      v.shl (distance k) = v.shl (distance (k - v.type.width)) := by
  have hmasked : k % v.type.width = (k - v.type.width) % v.type.width := Nat.mod_eq_sub_mod h
  rw [shr_distance, shr_distance, shl_distance, shl_distance, hmasked]
  exact ⟨rfl, rfl⟩

/-- Where the sum reaches the width, the shift by the sum leaves more of a one than two shifts
do. -/
theorem shlTwice_one_ne {t : IntType} (hi : i < t.width) (hj : j < t.width) (h : t.width ≤ i + j) :
    (ofInt t 1).shlTwice i j ≠ (ofInt t 1).shl (distance (i + j)) := by
  rw [shlTwice_of_width_le (ofInt t 1) hi hj h, shl_distance]
  intro heq
  have hone : (ofInt t 1).toInt = 1 := toInt_ofInt (by cases t <;> decide)
  have hmod := ofInt_eq_iff_modEq.mp (Except.ok.inj heq)
  rw [hone, Int.one_mul] at hmod
  -- A power of two below the modulus is no multiple of it.
  have hlt : (2 : Int) ^ ((i + j) % t.width) < 2 ^ t.width :=
    pow_lt_pow_right₀ (by decide) (Nat.mod_lt _ t.width_pos)
  have hle := Int.le_of_dvd (two_pow_pos _) (Int.modEq_zero_iff_dvd.mp hmod.symm)
  exact absurd hlt (Int.not_lt.mpr hle)

/-- From the width on they are not: the greatest value is shifted out by two shifts, while one shift
masks the distance. -/
theorem shrTwice_max_ne {t : IntType} (hi : i < t.width) (hj : j < t.width) (h : t.width ≤ i + j) :
    (ofInt t t.maxValue).shrTwice i j ≠ (ofInt t t.maxValue).shr (distance (i + j)) := by
  have hmax : (ofInt t t.maxValue).toInt = t.maxValue := toInt_ofInt t.inRange_maxValue
  have hleft : (i + j) % t.width ≤ t.width - 2 := by
    rw [Nat.mod_eq_sub_mod h, Nat.mod_eq_of_lt (by omega)]
    omega
  have hpow : (2 : Int) ^ ((i + j) % t.width) ≤ t.maxValue := by
    have htop : (2 : Int) ^ (t.width - 2) ≤ t.maxValue := by cases t <;> decide
    exact Int.le_trans (pow_le_pow_right₀ (by decide) hleft) htop
  rw [shrTwice_of_width_le (ofInt t t.maxValue) hi hj h, shr_distance]
  intro heq
  have hvalue := congrArg toInt (Except.ok.inj heq)
  rw [toInt_ofInt_ediv, hmax, if_neg (Int.not_lt.mpr t.maxValue_nonneg), type_ofInt,
    toInt_ofInt t.inRange_zero] at hvalue
  have hone : 1 ≤ t.maxValue / 2 ^ ((i + j) % t.width) :=
    Int.le_ediv_of_mul_le (two_pow_pos _) (by omega)
  omega

/-! ## To the left and back -/

/-- What is left of an integer after a shift to the left, as a multiple of the power: the integer of
the remaining bits that agrees with it in them. -/
theorem exists_toInt_shl (v : Value) (hk : k < v.type.width) :
    ∃ n, (ofInt v.type (v.toInt * 2 ^ k)).toInt = n * 2 ^ k ∧
      FitsIn v.type.signed (v.type.width - k) n ∧
      n ≡ v.toInt [ZMOD 2 ^ (v.type.width - k)] := by
  have hrange := (ofInt v.type (v.toInt * 2 ^ k)).toInt_inRange
  have hsplit : (2 : Int) ^ v.type.width = 2 ^ (v.type.width - k) * 2 ^ k := by
    rw [← pow_add, Nat.sub_add_cancel (Nat.le_of_lt hk)]
  obtain ⟨c, hc⟩ := Int.modEq_iff_dvd.mp (toInt_ofInt_modEq v.type (v.toInt * 2 ^ k)).symm
  have hvalue : (ofInt v.type (v.toInt * 2 ^ k)).toInt =
      (v.toInt + 2 ^ (v.type.width - k) * c) * 2 ^ k := by
    rw [hsplit] at hc
    linear_combination hc
  rw [hvalue, type_ofInt, IntType.inRange_iff_fitsIn, fitsIn_mul_two_pow hk] at hrange
  refine ⟨_, hvalue, hrange, ?_⟩
  exact Int.modEq_iff_dvd.mpr ⟨-c, by linear_combination⟩

/-- A shift to the left and back changes nothing exactly if it loses nothing. -/
theorem shl_shr_eq_iff (v : Value) (hk : k < v.type.width) :
    (v.shl (distance k) >>= (·.shr (distance k))) = .ok v ↔
      FitsIn v.type.signed (v.type.width - k) v.toInt := by
  -- The shift to the left leaves a multiple of the power, by which the way back divides exactly.
  obtain ⟨n, hn, hfits, hmod⟩ := v.exists_toInt_shl hk
  have hback := shr_distance (ofInt v.type (v.toInt * 2 ^ k)) k
  rw [type_ofInt, hn, Nat.mod_eq_of_lt hk,
    Int.mul_ediv_cancel n (Int.ne_of_gt (two_pow_pos k))] at hback
  have hrange : v.type.InRange n := by
    rw [← Int.mul_ediv_cancel n (Int.ne_of_gt (two_pow_pos k)), ← hn]
    exact (toInt_inRange (ofInt v.type (v.toInt * 2 ^ k))).ediv_two_pow k
  have hshl : v.shl (distance k) = .ok (ofInt v.type (v.toInt * 2 ^ k)) := by
    rw [shl_distance, Nat.mod_eq_of_lt hk]
  rw [hshl]
  show (ofInt v.type (v.toInt * 2 ^ k)).shr (distance k) = .ok v ↔ _
  rw [hback, Except.ok.injEq]
  constructor
  · intro hv
    have hvalue : n = v.toInt := by
      rw [← toInt_ofInt hrange, hv]
    exact hvalue ▸ hfits
  · intro hv
    rw [hfits.eq_of_modEq (by omega) hv hmod]
    exact ofInt_toInt v

/-- **A shift to the right rounds down, and shifts add up as long as their sum is not masked.** The
distance is any `i32`; its count is taken from above zero also where it is negative. From a whole
width on, two shifts leave nothing but the sign, which a single shift by the masked sum does not. -/
theorem shr_floors (v : Value) :
    (∀ d : BitVec 32, ∃ shifted, v.shr ⟨.i32, d⟩ = .ok shifted ∧ shifted.type = v.type ∧
      shifted.toInt = v.toInt.fdiv (2 ^ (d.toInt % v.type.width).toNat)) ∧
    (∀ i j, i < v.type.width → j < v.type.width →
      (i + j < v.type.width →
        v.shrTwice i j = v.shr (distance (i + j)) ∧ v.shlTwice i j = v.shl (distance (i + j))) ∧
      (v.type.width ≤ i + j →
        v.shlTwice i j = .ok (ofInt v.type 0) ∧
        v.shrTwice i j = .ok (ofInt v.type (if v.toInt < 0 then -1 else 0)) ∧
        v.shr (distance (i + j)) = v.shr (distance (i + j - v.type.width)) ∧
        v.shl (distance (i + j)) = v.shl (distance (i + j - v.type.width)) ∧
        (∃ u : Value, u.type = v.type ∧ u.shlTwice i j ≠ u.shl (distance (i + j))) ∧
        ∃ u : Value, u.type = v.type ∧ u.shrTwice i j ≠ u.shr (distance (i + j)))) ∧
    ∀ k, k < v.type.width →
      ((v.shl (distance k) >>= (·.shr (distance k))) = .ok v ↔
        FitsIn v.type.signed (v.type.width - k) v.toInt) := by
  refine ⟨?_, ?_, ?_⟩
  · intro d
    refine ⟨_, shr_of_i32 v rfl, rfl, ?_⟩
    rw [toInt_ofInt_ediv, shiftCount_eq_emod rfl,
      Int.fdiv_eq_ediv_of_nonneg v.toInt (Int.le_of_lt (two_pow_pos _))]
    rfl
  · intro i j hi hj
    refine ⟨?_, ?_⟩
    · intro h
      exact ⟨v.shrTwice_of_lt h, v.shlTwice_of_lt h⟩
    · intro h
      obtain ⟨hshr, hshl⟩ := v.shift_masked h
      exact ⟨v.shlTwice_of_width_le hi hj h, v.shrTwice_of_width_le hi hj h, hshr, hshl,
        ⟨ofInt v.type 1, rfl, shlTwice_one_ne hi hj h⟩,
        ⟨ofInt v.type v.type.maxValue, rfl, shrTwice_max_ne hi hj h⟩⟩
  · intro k hk
    exact v.shl_shr_eq_iff hk

/-- A negative `i32` by the distance `-1`, by twice 20 places and by twice 10, and to the left and
back over a bit that is and one that is not part of it. -/
theorem shr_floors_negative :
    (20 < IntType.width .i32 ∧ IntType.width .i32 ≤ 20 + 20 ∧ 10 + 10 < IntType.width .i32) ∧
    (∃ shifted, Value.shr ⟨.i32, 0xfffffffb⟩ ⟨.i32, 0xffffffff⟩ = .ok shifted ∧
      shifted.type = .i32 ∧ shifted.toInt = (-5 : Int).fdiv (2 ^ 31)) ∧
    Value.shrTwice ⟨.i32, 0xfffffffb⟩ 20 20 = .ok (ofInt .i32 (-1)) ∧
    Value.shlTwice ⟨.i32, 0xfffffffb⟩ 20 20 = .ok (ofInt .i32 0) ∧
    Value.shrTwice ⟨.i32, 0xfffffffb⟩ 10 10 = Value.shr ⟨.i32, 0xfffffffb⟩ (distance 20) ∧
    (Value.shl ⟨.i32, 0xfffffffb⟩ (distance 28) >>= (·.shr (distance 28))) =
      .ok ⟨.i32, 0xfffffffb⟩ ∧
    (Value.shl ⟨.i32, 0xfffffffb⟩ (distance 29) >>= (·.shr (distance 29))) ≠
      .ok ⟨.i32, 0xfffffffb⟩ := by
  obtain ⟨hfloor, htwice, hback⟩ := shr_floors ⟨.i32, 0xfffffffb⟩
  obtain ⟨-, hwide⟩ := htwice 20 20 (by decide) (by decide)
  obtain ⟨hshl, hshr, -⟩ := hwide (by decide)
  obtain ⟨hnarrow, -⟩ := htwice 10 10 (by decide) (by decide)
  exact ⟨⟨by decide, by decide, by decide⟩, hfloor 0xffffffff, hshr, hshl,
    (hnarrow (by decide)).1, (hback 28 (by decide)).mpr (by decide),
    mt (hback 29 (by decide)).mp (by decide)⟩

end Value

end FixedWidth
