import FixedWidth.Proofs.Arithmetic

/-!
# Division and remainder

The quotient truncates toward zero and the remainder completes it, over the integers of the operands
at the promoted type. One pair of operands has a quotient beyond the range (`QuotientOverflows`),
the least value and `-1`; there the quotient is the least value again and the remainder is zero.

The two range lemmas are what the rest needs: a remainder lies between zero and the dividend
(`tmod_inRange`), and a quotient is at most half of the dividend unless the divisor is `1` or `-1`
(`tdiv_inRange`).
-/

namespace FixedWidth

namespace IntType

/-- Whether the truncated quotient of two integers of the type is out of its range. -/
def QuotientOverflows (t : IntType) (a b : Int) : Prop :=
  t.signed = true ∧ a = t.minValue ∧ b = -1

instance (t : IntType) (a b : Int) : Decidable (t.QuotientOverflows a b) :=
  inferInstanceAs (Decidable (_ ∧ _ ∧ _))

end IntType

/-! ## Truncated division of integers -/

/-- A remainder has the sign of the dividend unless it is zero. -/
theorem tmod_eq_zero_or_sign (a b : Int) : a.tmod b = 0 ∨ (a.tmod b).sign = a.sign := by
  by_cases hdvd : b ∣ a
  · exact Or.inl (Int.tmod_eq_zero_of_dvd hdvd)
  · right
    rw [Int.sign_tmod, if_neg hdvd]

theorem natAbs_tmod_le (a b : Int) : (a.tmod b).natAbs ≤ a.natAbs := by
  rw [Int.natAbs_tmod]
  exact Nat.mod_le _ _

theorem natAbs_tmod_lt (a : Int) {b : Int} (hb : b ≠ 0) : (a.tmod b).natAbs < b.natAbs := by
  rw [Int.natAbs_tmod]
  exact Nat.mod_lt _ (Int.natAbs_pos.mpr hb)

namespace IntType.InRange

variable {t : IntType} {a b : Int}

/-- A remainder lies between zero and the dividend. -/
theorem tmod_inRange (ha : t.InRange a) (b : Int) : t.InRange (a.tmod b) := by
  have hmin := t.minValue_nonpos
  have hmax := t.maxValue_nonneg
  obtain ⟨ha1, ha2⟩ := ha
  have habs := natAbs_tmod_le a b
  rcases Int.le_total 0 a with hpos | hneg
  · have h := Int.tmod_nonneg b hpos
    exact ⟨by omega, by omega⟩
  · have h := Int.tmod_nonneg b (a := -a) (by omega)
    rw [Int.neg_tmod] at h
    exact ⟨by omega, by omega⟩

/-- A quotient leaves the range in one case only. -/
theorem tdiv_inRange (ha : t.InRange a) (hb : t.InRange b) (hb0 : b ≠ 0)
    (hover : ¬ t.QuotientOverflows a b) : t.InRange (a.tdiv b) := by
  have habs : (a.tdiv b).natAbs ≤ a.natAbs := Int.natAbs_tdiv_le_natAbs a b
  obtain ⟨ha1, ha2⟩ := ha
  cases hs : t.signed with
  | false =>
    have hb1 := hb.1
    rw [minValue_of_unsigned hs] at ha1 hb1
    have hnonneg := Int.tdiv_nonneg ha1 hb1
    exact ⟨by rw [minValue_of_unsigned hs]; exact hnonneg, by omega⟩
  | true =>
    have hmin := minValue_of_signed hs
    have hmax := maxValue_of_signed hs
    have hpow : (2 : Int) ≤ 2 ^ (t.width - 1) := by cases t <;> decide
    -- Only a divisor of absolute value one can bring the quotient near an end of the range.
    by_cases hunit : b.natAbs = 1
    · rcases Int.natAbs_eq_iff.mp hunit with rfl | rfl
      · rw [show ((1 : Nat) : Int) = 1 from rfl, Int.tdiv_one]
        exact ⟨ha1, ha2⟩
      · have hne : a ≠ t.minValue := by
          intro he
          exact hover ⟨hs, he, rfl⟩
        rw [show -((1 : Nat) : Int) = -1 from rfl, Int.tdiv_neg, Int.tdiv_one]
        exact ⟨by omega, by omega⟩
    · have hhalf : (a.tdiv b).natAbs ≤ a.natAbs / 2 := by
        rw [Int.natAbs_tdiv]
        exact Nat.div_le_div_left (by omega) (by decide)
      exact ⟨by omega, by omega⟩

end IntType.InRange

/-! ## Quotient and remainder of values -/

namespace Value

variable {t : IntType}

/-- The quotient of the least value by `-1` wraps back to it. -/
theorem toInt_ofInt_tdiv_of_overflow {a b : Int} (h : t.QuotientOverflows a b) :
    (ofInt t (a.tdiv b)).toInt = t.minValue := by
  obtain ⟨hs, rfl, rfl⟩ := h
  rw [Int.tdiv_neg, Int.tdiv_one, toInt_ofInt_neg hs t.inRange_minValue, if_pos rfl]

end Value

/-- What quotient and remainder are to integers `a` and `b` of a type. -/
structure TruncatedDivision (t : IntType) (a b : Int) (quotient remainder : Value) : Prop where
  type_quotient : quotient.type = t
  type_remainder : remainder.type = t
  toInt_quotient :
    quotient.toInt = if t.QuotientOverflows a b then t.minValue else a.tdiv b
  toInt_remainder : remainder.toInt = a - b * a.tdiv b
  remainder_lt : |remainder.toInt| < |b|
  sign_remainder : remainder.toInt = 0 ∨ remainder.toInt.sign = a.sign
  complete : ¬ t.QuotientOverflows a b → quotient.toInt * b + remainder.toInt = a
  complete_of_overflow : t.QuotientOverflows a b →
    remainder.toInt = 0 ∧ quotient.toInt * b + remainder.toInt ≡ a [ZMOD 2 ^ t.width]

/-- Quotient and remainder of integers, reduced to the type, are a truncated division, also where
the quotient overflows. -/
theorem truncatedDivision_ofInt {t : IntType} {a b : Int} (ha : t.InRange a) (hb : t.InRange b)
    (hb0 : b ≠ 0) :
    TruncatedDivision t a b (Value.ofInt t (a.tdiv b)) (Value.ofInt t (a.tmod b)) := by
  have hrem : (Value.ofInt t (a.tmod b)).toInt = a.tmod b :=
    Value.toInt_ofInt (ha.tmod_inRange b)
  constructor
  case type_quotient => rfl
  case type_remainder => rfl
  case toInt_quotient =>
    -- The least value by `-1` is the only quotient out of range.
    by_cases hover : t.QuotientOverflows a b
    · rw [if_pos hover]
      exact Value.toInt_ofInt_tdiv_of_overflow hover
    · rw [if_neg hover]
      exact Value.toInt_ofInt (ha.tdiv_inRange hb hb0 hover)
  case toInt_remainder => rw [hrem, Int.tmod_def]
  case remainder_lt =>
    rw [hrem, Int.abs_eq_natAbs, Int.abs_eq_natAbs]
    exact_mod_cast natAbs_tmod_lt a hb0
  case sign_remainder =>
    rw [hrem]
    exact tmod_eq_zero_or_sign a b
  case complete =>
    intro hover
    rw [hrem, Value.toInt_ofInt (ha.tdiv_inRange hb hb0 hover)]
    exact Int.tdiv_mul_add_tmod a b
  case complete_of_overflow =>
    intro hover
    rw [hrem, Value.toInt_ofInt_tdiv_of_overflow hover]
    obtain ⟨hs, rfl, rfl⟩ := hover
    rw [Int.tmod_neg, Int.tmod_one]
    refine ⟨rfl, ?_⟩
    rw [Int.mul_neg, Int.mul_one, Int.add_zero]
    exact IntType.neg_minValue_modEq hs

/-- **Division fails on zero alone and truncates everything else**, where `a` and `b` are the
integers that the operands have at their promoted type. Promotion makes no zero and loses none, so
it does not matter on which side of it the divisor is asked. -/
theorem evaluate_div_mod {left right : Value} {t : IntType} {a b : Int}
    (h : Promotion.arithmetic left.type right.type = some t)
    (ha : (left.resize t).toInt = a) (hb : (right.resize t).toInt = b) :
    (right.toInt = 0 ↔ b = 0) ∧
    (evaluate .div [left, right] = .error (.divisionByZero .div left.type right.type) ↔
      right.toInt = 0) ∧
    (evaluate .mod [left, right] = .error (.divisionByZero .mod left.type right.type) ↔
      right.toInt = 0) ∧
    (right.toInt ≠ 0 → ∃ quotient remainder,
      evaluate .div [left, right] = .ok ⟨.div, quotient⟩ ∧
      evaluate .mod [left, right] = .ok ⟨.mod, remainder⟩ ∧
      TruncatedDivision t a b quotient remainder) := by
  have hzero : right.toInt = 0 ↔ b = 0 :=
    hb ▸ (Value.toInt_resize_eq_zero_iff (Promotion.width_le_of_arithmetic h).2).symm
  have hdiv : evaluate .div [left, right] = (left.div right).map (⟨.div, ·⟩) := rfl
  have hmod : evaluate .mod [left, right] = (left.mod right).map (⟨.mod, ·⟩) := rfl
  rw [Value.div_of_arithmetic h, ha, hb] at hdiv
  rw [Value.mod_of_arithmetic h, ha, hb] at hmod
  by_cases hr : right.toInt = 0
  · rw [if_pos hr] at hdiv hmod
    exact ⟨hzero, ⟨fun _ => hr, fun _ => hdiv⟩, ⟨fun _ => hr, fun _ => hmod⟩,
      fun hne => absurd hr hne⟩
  · rw [if_neg hr] at hdiv hmod
    have harange : t.InRange a := ha ▸ (left.resize t).toInt_inRange
    have hbrange : t.InRange b := hb ▸ (right.resize t).toInt_inRange
    have hb0 : b ≠ 0 := by
      intro hb0
      exact hr (hzero.mpr hb0)
    refine ⟨hzero, ⟨?_, fun hz => absurd hz hr⟩, ⟨?_, fun hz => absurd hz hr⟩, ?_⟩
    · intro he
      rw [hdiv] at he
      cases he
    · intro he
      rw [hmod] at he
      cases he
    · intro _
      exact ⟨_, _, hdiv, hmod, truncatedDivision_ofInt harange hbrange hb0⟩

/-- The least `i64` by the `i32` of minus one, which promotion brings to `i64`. -/
theorem evaluate_div_mod_least :
    Promotion.arithmetic .i64 .i32 = some .i64 ∧
      ((⟨.i64, 0x8000000000000000⟩ : Value).resize .i64).toInt = -9223372036854775808 ∧
      ((⟨.i32, 0xffffffff⟩ : Value).resize .i64).toInt = -1 ∧
      ∃ quotient remainder,
        evaluate .div [⟨.i64, 0x8000000000000000⟩, ⟨.i32, 0xffffffff⟩] = .ok ⟨.div, quotient⟩ ∧
        evaluate .mod [⟨.i64, 0x8000000000000000⟩, ⟨.i32, 0xffffffff⟩] = .ok ⟨.mod, remainder⟩ ∧
        TruncatedDivision .i64 (-9223372036854775808) (-1) quotient remainder :=
  ⟨by decide, by decide, by decide,
    (@evaluate_div_mod ⟨.i64, 0x8000000000000000⟩ ⟨.i32, 0xffffffff⟩ .i64 _ _
      (by decide) (by decide) (by decide)).2.2.2 (by decide)⟩

end FixedWidth
