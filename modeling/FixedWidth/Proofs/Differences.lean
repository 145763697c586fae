import FixedWidth.Proofs.Arithmetic

/-!
# Sums, differences and negatives across types

Whether subtraction is still the inverse of addition, and still the addition of the negative, where
the operands have two types and every step promotes anew.

The first law holds wherever there is a promoted type `t`. The first step brings its result to `t`,
and `t` meets the same right operand in `t` again (`arithmetic_absorb`), so both steps reduce
integers modulo the same power of two.

The second law is about when the right operand is reduced: a difference negates it at the promoted
type, the sum with its negative at its own type first. By `toInt_ofInt_neg` the two agree on every
integer of a signed type that has a mirror image in it. The least one has none and comes back
unchanged, and `neg_minValue_modEq_iff` says that the promoted type notices exactly if it is wider,
which of the signed types can happen to `i32` only (`width_eq_iff`).

> `add_sub_neg_laws`
-/

namespace FixedWidth

namespace Promotion

/-- Arithmetic widens a signed right operand only if that is an `i32` beside another type. -/
theorem width_eq_iff {left right type : IntType} (h : arithmetic left right = some type)
    (hs : right.signed = true) :
    type.width = right.width ↔ ¬ (right = .i32 ∧ left ≠ .i32) := by
  revert h hs
  cases left <;> cases right <;> cases type <;> decide

end Promotion

namespace Value

variable {a b d : Value} {t : IntType}

/-! ## Sums and differences at a promoted type -/

/-- There is a difference only at a promoted type. -/
theorem arithmetic_of_sub (h : a.sub b = .ok d) :
    Promotion.arithmetic a.type b.type = some d.type := by
  cases ht : Promotion.arithmetic a.type b.type with
  | none =>
    rw [sub_eq, Promotion.binaryResult_of_arithmetic_none rfl ht] at h
    cases h
  | some t =>
    rw [sub_of_arithmetic ht] at h
    rw [← Except.ok.inj h, type_ofInt]

/-- Taking away what was added leaves the left operand, as the promoted type has it. -/
theorem add_then_sub (h : Promotion.arithmetic a.type b.type = some t) :
    (a.add b >>= (·.sub b)) = .ok (a.resize t) := by
  have hmod := (toInt_ofInt_modEq t (a.toInt + b.toInt)).sub_right b.toInt
  rw [Int.add_sub_cancel] at hmod
  rw [add_of_arithmetic h]
  show (ofInt t (a.toInt + b.toInt)).sub b = _
  rw [sub_of_arithmetic (Promotion.arithmetic_absorb h), type_ofInt, resize_eq_ofInt,
    ofInt_eq_iff_modEq.mpr hmod]

/-- What has been subtracted can be added back; the left operand returns in the promoted type. -/
theorem sub_then_add (h : Promotion.arithmetic a.type b.type = some t) :
    (a.sub b >>= (·.add b)) = .ok (a.resize t) := by
  have hmod := (toInt_ofInt_modEq t (a.toInt - b.toInt)).add_right b.toInt
  rw [Int.sub_add_cancel] at hmod
  rw [sub_of_arithmetic h]
  show (ofInt t (a.toInt - b.toInt)).add b = _
  rw [add_of_arithmetic (Promotion.arithmetic_absorb h), type_ofInt, resize_eq_ofInt,
    ofInt_eq_iff_modEq.mpr hmod]

theorem add_swap (h : Promotion.arithmetic a.type b.type = some t) :
    ∃ s, a.add b = .ok s ∧ b.add a = .ok s := by
  have h' : Promotion.arithmetic b.type a.type = some t := by
    rw [Promotion.arithmetic_comm, h]
  refine ⟨_, add_of_arithmetic h, ?_⟩
  rw [add_of_arithmetic h', Int.add_comm]

/-! ## Negatives -/

/-- The least value of a type. -/
def least (t : IntType) : Value := ofInt t t.minValue

theorem eq_least_iff : b = least t ↔ b.type = t ∧ b.toInt = t.minValue := by
  have hleast : (least t).toInt = t.minValue := toInt_ofInt t.inRange_minValue
  constructor
  · intro h
    subst h
    exact ⟨rfl, hleast⟩
  · intro h
    exact ext_toInt h.1 (h.2.trans hleast.symm)

/-- A negative that was reduced at its own type is one at another exactly if that is no wider or
there was nothing to reduce. -/
theorem toInt_ofInt_neg_modEq_iff (hs : t.signed = true) {n : Int} (hn : t.InRange n)
    {bits : Nat} :
    (ofInt t (-n)).toInt ≡ -n [ZMOD 2 ^ bits] ↔ bits ≤ t.width ∨ n ≠ t.minValue := by
  rw [toInt_ofInt_neg hs hn]
  by_cases hmin : n = t.minValue
  · rw [if_pos hmin, hmin, Int.modEq_comm, IntType.neg_minValue_modEq_iff hs]
    exact ⟨Or.inl, fun h => h.resolve_right fun hne => hne rfl⟩
  · rw [if_neg hmin]
    exact iff_of_true rfl (Or.inr hmin)

/-- A `u32` is negated at `i64`, where every one of its integers has a mirror image. -/
theorem neg_of_u32 (hb : b.type = .u32) :
    b.neg = .ok (ofInt .i64 (-b.toInt)) ∧ (ofInt .i64 (-b.toInt)).toInt = -b.toInt := by
  constructor
  · rw [neg_eq, hb]
    rfl
  · have hrange := b.toInt_inRange
    rw [hb] at hrange
    have hwithin : ∀ n, IntType.InRange .u32 n → IntType.InRange .i64 (-n) := by
      intro n hn
      have hmin : IntType.minValue .u32 = 0 := rfl
      have hmax : IntType.maxValue .u32 < IntType.maxValue .i64 := by decide
      have hlow : IntType.minValue .i64 = -IntType.maxValue .i64 - 1 := by decide
      obtain ⟨h1, h2⟩ := hn
      exact ⟨by omega, by omega⟩
    exact toInt_ofInt (hwithin _ hrange)

/-! ## Differences as sums -/

/-- The sum with the negative of the right operand. -/
def addNegative (a b : Value) : Except EvalError Value := b.neg >>= a.add

/-- The negative of a signed value is reduced to its own type before it is added. -/
theorem addNegative_of_signed (hs : b.type.signed = true)
    (h : Promotion.arithmetic a.type b.type = some t) :
    a.addNegative b = .ok (ofInt t (a.toInt + (ofInt b.type (-b.toInt)).toInt)) := by
  unfold addNegative
  rw [neg_of_signed hs]
  exact add_of_arithmetic (b := ofInt b.type (-b.toInt)) h

/-- A difference is the sum with the negative, but for an `i32` that has no mirror image and is
negated before it is widened. -/
theorem sub_eq_addNegative_iff (hs : b.type.signed = true) (h : a.sub b = .ok d) :
    ∃ s, a.addNegative b = .ok s ∧ s.type = d.type ∧
      (d = s ↔ ¬ (b = least .i32 ∧ a.type ≠ .i32)) := by
  have ht := arithmetic_of_sub h
  have hwidth := (Promotion.width_le_of_arithmetic ht).2
  refine ⟨_, addNegative_of_signed hs ht, rfl, ?_⟩
  have hd : d = ofInt d.type (a.toInt + -b.toInt) := by
    rw [← Int.sub_eq_add_neg]
    exact Except.ok.inj (h.symm.trans (sub_of_arithmetic ht))
  -- The negative is computed at the type of `b` and widened only afterwards.
  have hwiden : d.type.width ≤ b.type.width ↔ ¬ (b.type = .i32 ∧ a.type ≠ .i32) := by
    rw [← Promotion.width_eq_iff ht hs]
    omega
  rw [hd, type_ofInt, ofInt_eq_iff_modEq, Int.modEq_comm]
  have hcancel : a.toInt + (ofInt b.type (-b.toInt)).toInt ≡ a.toInt + -b.toInt
      [ZMOD 2 ^ d.type.width] ↔
      (ofInt b.type (-b.toInt)).toInt ≡ -b.toInt [ZMOD 2 ^ d.type.width] :=
    ⟨Int.ModEq.add_left_cancel' a.toInt, Int.ModEq.add_left a.toInt⟩
  rw [hcancel, toInt_ofInt_neg_modEq_iff hs b.toInt_inRange, hwiden, eq_least_iff]
  constructor
  · intro hor hleast
    obtain ⟨⟨hb, hmin⟩, ha⟩ := hleast
    rcases hor with hnarrow | hne
    · exact hnarrow ⟨hb, ha⟩
    · exact hne (hb ▸ hmin)
  · intro hnot
    by_cases hmin : b.toInt = b.type.minValue
    · refine Or.inl ?_
      intro hwider
      exact hnot ⟨⟨hwider.1, hwider.1 ▸ hmin⟩, hwider.2⟩
    · exact Or.inr hmin

/-- Beside a `u32` the sum with the negative may be wider than the difference, and then has its low
bits. -/
theorem sub_eq_resize_addNegative (hb : b.type = .u32) (ha : a.type ≠ .u64) :
    ∃ d s, a.sub b = .ok d ∧ a.addNegative b = .ok s ∧ s.resize d.type = d := by
  obtain ⟨hneg, hvalue⟩ := neg_of_u32 hb
  have hsum : Promotion.arithmetic a.type .i64 = some .i64 := by
    revert ha
    cases a.type <;> decide
  obtain ⟨t, ht⟩ : ∃ t, Promotion.arithmetic a.type b.type = some t := by
    rw [hb]
    cases a.type <;> exact ⟨_, rfl⟩
  have hs : a.addNegative b = .ok (ofInt .i64 (a.toInt - b.toInt)) := by
    have hadd := add_of_arithmetic (b := ofInt .i64 (-b.toInt)) hsum
    rw [hvalue, ← Int.sub_eq_add_neg] at hadd
    unfold addNegative
    rw [hneg]
    exact hadd
  refine ⟨_, _, sub_of_arithmetic ht, hs, ?_⟩
  exact resize_ofInt t.width_le_64 _

/-- The negative of a `u32` is an `i64`, which has no common type with a `u64`. -/
theorem addNegative_of_u64 (hb : b.type = .u32) (ha : a.type = .u64) :
    a.addNegative b = .error (.unrepresentable .add [.u64, .i64]) := by
  unfold addNegative
  rw [(neg_of_u32 hb).1]
  show a.add (ofInt .i64 (-b.toInt)) = _
  rw [add_eq, ha]
  rfl

/-- **Addition, subtraction and negation across types.** Sums and differences undo each other at the
promoted type. Taking a signed operand away is adding its negative, but for the least `i32` beside
another type; for a `u32` the two agree at the type of the difference, and beside a `u64` there is
the difference alone. -/
theorem add_sub_neg_laws (a b : Value) :
    (∀ t, Promotion.arithmetic a.type b.type = some t →
      (a.add b >>= (·.sub b)) = .ok (a.resize t) ∧
      (a.sub b >>= (·.add b)) = .ok (a.resize t) ∧
      ∃ s, a.add b = .ok s ∧ b.add a = .ok s) ∧
    (b.type.signed = true → ∀ d, a.sub b = .ok d →
      ∃ s, a.addNegative b = .ok s ∧ s.type = d.type ∧
        (d = s ↔ ¬ (b = least .i32 ∧ a.type ≠ .i32))) ∧
    (b.type = .u32 →
      (a.type ≠ .u64 →
        ∃ d s, a.sub b = .ok d ∧ a.addNegative b = .ok s ∧ s.resize d.type = d) ∧
      (a.type = .u64 → a.addNegative b = .error (.unrepresentable .add [.u64, .i64]))) := by
  refine ⟨?_, ?_, ?_⟩
  · intro t h
    exact ⟨add_then_sub h, sub_then_add h, add_swap h⟩
  · intro hs d h
    exact sub_eq_addNegative_iff hs h
  · intro hb
    exact ⟨sub_eq_resize_addNegative hb, addNegative_of_u64 hb⟩

/-- The least `i32` beside a `u32`, where the difference is not the sum with the negative; the least
`i64`, where it is; and a `u32` beside a `u32` and beside a `u64`. -/
theorem add_sub_neg_laws_least :
    (Promotion.arithmetic .u32 .i32 = some .i64 ∧
      (Value.add ⟨.u32, 7⟩ ⟨.i32, 0x80000000⟩ >>= (·.sub ⟨.i32, 0x80000000⟩)) = .ok ⟨.i64, 7⟩) ∧
    (Value.sub ⟨.u32, 7⟩ ⟨.i32, 0x80000000⟩ = .ok ⟨.i64, 0x80000007⟩ ∧
      ∃ s, addNegative ⟨.u32, 7⟩ ⟨.i32, 0x80000000⟩ = .ok s ∧
        (⟨.i64, 0x80000007⟩ : Value) ≠ s) ∧
    (Value.sub ⟨.i32, 7⟩ ⟨.i64, 0x8000000000000000⟩ = .ok ⟨.i64, 0x8000000000000007⟩ ∧
      addNegative ⟨.i32, 7⟩ ⟨.i64, 0x8000000000000000⟩ = .ok ⟨.i64, 0x8000000000000007⟩) ∧
    (∃ d s, Value.sub ⟨.u32, 7⟩ ⟨.u32, 9⟩ = .ok d ∧ addNegative ⟨.u32, 7⟩ ⟨.u32, 9⟩ = .ok s ∧
      s.resize d.type = d) ∧
    addNegative ⟨.u64, 7⟩ ⟨.u32, 9⟩ = .error (.unrepresentable .add [.u64, .i64]) := by
  obtain ⟨hundo, hsub, -⟩ := add_sub_neg_laws ⟨.u32, 7⟩ ⟨.i32, 0x80000000⟩
  obtain ⟨s, hs, -, hiff⟩ := hsub rfl ⟨.i64, 0x80000007⟩ rfl
  obtain ⟨-, hwide, -⟩ := add_sub_neg_laws ⟨.i32, 7⟩ ⟨.i64, 0x8000000000000000⟩
  obtain ⟨s', hs', -, hiff'⟩ := hwide rfl ⟨.i64, 0x8000000000000007⟩ rfl
  have hequal : (⟨.i64, 0x8000000000000007⟩ : Value) = s' := hiff'.mpr (by decide)
  refine ⟨⟨rfl, (hundo .i64 rfl).1⟩, ⟨rfl, s, hs, mt hiff.mp (by decide)⟩, ⟨rfl, ?_⟩,
    ((add_sub_neg_laws ⟨.u32, 7⟩ ⟨.u32, 9⟩).2.2 rfl).1 (by decide),
    ((add_sub_neg_laws ⟨.u64, 7⟩ ⟨.u32, 9⟩).2.2 rfl).2 rfl⟩
  rw [hequal]
  exact hs'

end Value

end FixedWidth
