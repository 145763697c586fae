import FixedWidth.Proofs.Division
import FixedWidth.Proofs.Shifting

/-!
# The same bits under the other sign

To each type there is one of the same width and the opposite sign (`IntType.opposite`), and a value
re-tagged as that type keeps its bits (`Value.retag`). Its integer stays in its class modulo two to
the width (`toInt_retag_modEq`): it is the same one where the top bit is clear, and a whole modulus
away where it is set.

So every operator that works on classes is blind to the sign, and has the re-tagged result on
re-tagged operands (`RetagsTo.of_modEq`). Division and the shift to the right look at the integers
themselves. Division is blind as long as neither operand has its top bit set. A shift to the right
by `k` places takes integers a modulus apart to integers `2 ^ (width - k)` apart, which are of one
class only for `k = 0`.

> `retag_operators`
-/

namespace FixedWidth

namespace IntType

/-- The type of the same width and the opposite sign. -/
def opposite : IntType → IntType
  | i32 => u32
  | u32 => i32
  | i64 => u64
  | u64 => i64

@[simp] theorem width_opposite (t : IntType) : t.opposite.width = t.width := by
  cases t <;> rfl

@[simp] theorem signed_opposite (t : IntType) : t.opposite.signed = !t.signed := by
  cases t <;> rfl

end IntType

namespace Value

/-- The same bits as a value of the opposite sign. -/
def retag (v : Value) : Value := ⟨v.type.opposite, v.bits.cast v.type.width_opposite.symm⟩

@[simp] theorem type_retag (v : Value) : v.retag.type = v.type.opposite := rfl

@[simp] theorem pattern_retag (v : Value) : v.retag.pattern = v.pattern := rfl

/-! ## The integer of a re-tagged value -/

/-- The re-tagged value is the reduction of the same integer. -/
theorem retag_eq_ofInt (v : Value) : v.retag = ofInt v.type.opposite v.toInt := by
  have hbits := v.bits_eq_ofInt
  obtain ⟨t, bits⟩ := v
  cases t <;> exact congrArg (Value.mk _) hbits

theorem retag_ofInt (t : IntType) (n : Int) : (ofInt t n).retag = ofInt t.opposite n := by
  rw [retag_eq_ofInt, type_ofInt, ofInt_eq_iff_modEq, IntType.width_opposite]
  exact toInt_ofInt_modEq t n

/-- Re-tagging keeps the integer modulo two to the width. -/
theorem toInt_retag_modEq (v : Value) : v.retag.toInt ≡ v.toInt [ZMOD 2 ^ v.type.width] := by
  rw [retag_eq_ofInt, ← v.type.width_opposite]
  exact toInt_ofInt_modEq v.type.opposite v.toInt

theorem toInt_of_msb_clear {v : Value} (h : v.bits.msb = false) : v.toInt = v.pattern := by
  cases hs : v.type.signed with
  | true => exact (toInt_of_signed hs).trans (BitVec.toInt_eq_toNat_of_msb h)
  | false => exact toInt_of_unsigned hs

/-- With a set top bit the sign takes two to the width off the pattern. -/
theorem toInt_of_msb_set {v : Value} (h : v.bits.msb = true) :
    v.toInt = if v.type.signed then (v.pattern : Int) - 2 ^ v.type.width else v.pattern := by
  cases hs : v.type.signed with
  | true =>
    rw [if_pos rfl, toInt_of_signed hs, BitVec.toInt_eq_msb_cond, if_pos h]
    exact_mod_cast rfl
  | false => exact toInt_of_unsigned hs

theorem msb_retag (v : Value) : v.retag.bits.msb = v.bits.msb := by
  rw [BitVec.msb_eq_decide, BitVec.msb_eq_decide]
  show decide (2 ^ (v.type.opposite.width - 1) ≤ v.pattern) = _
  rw [IntType.width_opposite]
  rfl

/-- With its top bit clear a pattern is the same integer under either sign. -/
theorem toInt_retag_of_msb_clear {v : Value} (h : v.bits.msb = false) :
    v.retag.toInt = v.toInt := by
  rw [toInt_of_msb_clear h, toInt_of_msb_clear (v.msb_retag.trans h), pattern_retag]

/-- With its top bit set the two integers are a whole modulus apart. -/
theorem toInt_retag_of_msb_set {v : Value} (h : v.bits.msb = true) :
    ∃ c : Int, (c = 1 ∨ c = -1) ∧ v.retag.toInt = v.toInt + c * 2 ^ v.type.width := by
  rw [toInt_of_msb_set h, toInt_of_msb_set (v.msb_retag.trans h), pattern_retag, type_retag,
    IntType.signed_opposite, IntType.width_opposite]
  cases v.type.signed with
  | true =>
    refine ⟨1, .inl rfl, ?_⟩
    rw [Bool.not_true, if_neg (by decide), if_pos rfl]
    omega
  | false =>
    refine ⟨-1, .inr rfl, ?_⟩
    rw [Bool.not_false, if_pos rfl, if_neg (by decide)]
    omega

/-! ## Results -/

/-- Whether two results are one pattern under the two signs. -/
def RetagsTo (outcome retagged : Except EvalError Value) : Prop :=
  ∃ v, outcome = .ok v ∧ retagged = .ok v.retag

variable {a b : Value}

/-- Congruent integers are one pattern under the two signs, and no others are. -/
theorem ofInt_eq_retag_iff {t : IntType} {m n : Int} :
    ofInt t.opposite n = (ofInt t m).retag ↔ n ≡ m [ZMOD 2 ^ t.width] := by
  rw [retag_ofInt, ofInt_eq_iff_modEq, IntType.width_opposite]

/-- Results of congruent integers are one pattern under two signs. -/
theorem RetagsTo.of_modEq {t : IntType} {m n : Int} (h : n ≡ m [ZMOD 2 ^ t.width]) :
    RetagsTo (.ok (ofInt t m)) (.ok (ofInt t.opposite n)) :=
  ⟨_, rfl, congrArg Except.ok (ofInt_eq_retag_iff.mpr h)⟩

/-! ## Operators on classes -/

/-- Addition looks at patterns only, so operands of the other sign give the same bits. -/
theorem add_retag (h : b.type = a.type) : RetagsTo (a.add b) (a.retag.add b.retag) := by
  have hretag : b.retag.type = a.type.opposite := congrArg IntType.opposite h
  rw [add_of_type rfl h, add_of_type rfl hretag]
  have hb := h ▸ b.toInt_retag_modEq
  exact .of_modEq (a.toInt_retag_modEq.add hb)

/-- Subtraction looks at patterns only. -/
theorem sub_retag (h : b.type = a.type) : RetagsTo (a.sub b) (a.retag.sub b.retag) := by
  have hretag : b.retag.type = a.type.opposite := congrArg IntType.opposite h
  rw [sub_of_type rfl h, sub_of_type rfl hretag]
  have hb := h ▸ b.toInt_retag_modEq
  exact .of_modEq (a.toInt_retag_modEq.sub hb)

/-- The complement looks at patterns only. -/
theorem not_retag (a : Value) : RetagsTo a.not a.retag.not := by
  rw [not_eq, not_eq]
  exact .of_modEq (a.toInt_retag_modEq.sub_left (-1))

/-- The mask is that of the width, so the count is the same under either sign. -/
theorem shiftCount_retag (a d : Value) : shiftCount a.retag d = shiftCount a d := by
  rw [shiftCount_eq_mod, shiftCount_eq_mod, type_retag, IntType.width_opposite]

/-- A shift to the left looks at patterns only, at any distance. -/
theorem shl_retag (a : Value) (d : BitVec 32) :
    RetagsTo (a.shl ⟨.i32, d⟩) (a.retag.shl ⟨.i32, d⟩) := by
  rw [shl_of_i32 a rfl, shl_of_i32 a.retag rfl, shiftCount_retag]
  exact .of_modEq (a.toInt_retag_modEq.mul_right _)

/-! ## Operators on integers -/

/-- What becomes of a division when its operands are re-tagged: a zero divisor is reported on both
sides, each with its own type, and anything else has the re-tagged result. -/
structure DivisionRetags (op : Operator) (t : IntType) (divisor : Value)
    (outcome retagged : Except EvalError Value) : Prop where
  zero_iff : outcome = .error (.divisionByZero op t t) ↔ divisor.bits = 0
  zero_iff_retagged :
    retagged = .error (.divisionByZero op t.opposite t.opposite) ↔ divisor.bits = 0
  value : divisor.bits ≠ 0 → RetagsTo outcome retagged

/-- Two divisions that come to one integer unless they meet the same zero. -/
theorem DivisionRetags.of_ite {op : Operator} {t : IntType} {divisor : Value} {n : Int} :
    DivisionRetags op t divisor
      (if divisor.toInt = 0 then .error (.divisionByZero op t t) else .ok (ofInt t n))
      (if divisor.toInt = 0 then .error (.divisionByZero op t.opposite t.opposite)
        else .ok (ofInt t.opposite n)) := by
  by_cases hd : divisor.toInt = 0
  · rw [if_pos hd, if_pos hd]
    have hzero : divisor.bits = 0 := divisor.bits_eq_zero_iff.mpr hd
    exact ⟨iff_of_true rfl hzero, iff_of_true rfl hzero, fun hne => absurd hzero hne⟩
  · rw [if_neg hd, if_neg hd]
    have hzero : divisor.bits ≠ 0 := mt divisor.bits_eq_zero_iff.mp hd
    have hok : ∀ (v : Value) (e : EvalError), Except.ok v ≠ .error e := by
      intro v e he
      cases he
    exact ⟨iff_of_false (hok _ _) hzero, iff_of_false (hok _ _) hzero, fun _ => .of_modEq .rfl⟩

section

variable (h : b.type = a.type) (ha : a.bits.msb = false) (hb : b.bits.msb = false)

include h ha hb

/-- Division gives the same bits under either sign as long as both top bits are clear. -/
theorem div_retag : DivisionRetags .div a.type b (a.div b) (a.retag.div b.retag) := by
  have hretag : b.retag.type = a.type.opposite := congrArg IntType.opposite h
  rw [div_of_type rfl h, div_of_type rfl hretag, toInt_retag_of_msb_clear ha,
    toInt_retag_of_msb_clear hb]
  exact .of_ite

/-- So does the remainder. -/
theorem mod_retag : DivisionRetags .mod a.type b (a.mod b) (a.retag.mod b.retag) := by
  have hretag : b.retag.type = a.type.opposite := congrArg IntType.opposite h
  rw [mod_of_type rfl h, mod_of_type rfl hretag, toInt_retag_of_msb_clear ha,
    toInt_retag_of_msb_clear hb]
  exact .of_ite

end

/-- Integers a modulus apart are rounded to ones of different classes, unless they are not shifted
at all. -/
theorem ediv_two_pow_modEq_iff {w k : Nat} (hk : k < w) (n : Int) {c : Int} (hc : c = 1 ∨ c = -1) :
    (n + c * 2 ^ w) / 2 ^ k ≡ n / 2 ^ k [ZMOD 2 ^ w] ↔ k = 0 := by
  have hsplit : c * 2 ^ w = c * 2 ^ (w - k) * 2 ^ k := by
    rw [Int.mul_assoc, ← pow_add, Nat.sub_add_cancel (Nat.le_of_lt hk)]
  have hdiv : (n + c * 2 ^ w) / 2 ^ k = n / 2 ^ k + c * 2 ^ (w - k) := by
    rw [hsplit, Int.add_mul_ediv_right _ _ (Int.ne_of_gt (two_pow_pos k))]
  -- The quotients are a smaller power than the modulus apart, unless `k` is zero.
  have hdvd : (2 : Int) ^ w ∣ 2 ^ (w - k) ↔ w ≤ w - k := by
    exact_mod_cast Nat.pow_dvd_pow_iff_le_right (by decide : 1 < 2)
  have hunit : (2 : Int) ^ w ∣ c * 2 ^ (w - k) ↔ (2 : Int) ^ w ∣ 2 ^ (w - k) := by
    rcases hc with rfl | rfl
    · rw [Int.one_mul]
    · rw [Int.neg_one_mul, Int.dvd_neg]
  rw [hdiv, Int.modEq_comm, Int.modEq_iff_dvd, add_sub_cancel_left, hunit, hdvd]
  omega

/-- A shift to the right sees the sign, unless the top bit is clear or no place is shifted. -/
theorem shr_retag (a : Value) (d : BitVec 32) :
    ∃ v w, a.shr ⟨.i32, d⟩ = .ok v ∧ a.retag.shr ⟨.i32, d⟩ = .ok w ∧
      (w = v.retag ↔ a.bits.msb = false ∨ d.toNat % a.type.width = 0) := by
  refine ⟨_, _, shr_of_i32 a rfl, shr_of_i32 a.retag rfl, ?_⟩
  have hcount : shiftCount a ⟨.i32, d⟩ = d.toNat % a.type.width := shiftCount_eq_mod a _
  rw [shiftCount_retag, type_retag, ofInt_eq_retag_iff, ← hcount]
  cases hmsb : a.bits.msb with
  | false =>
    rw [toInt_retag_of_msb_clear hmsb]
    exact iff_of_true Int.ModEq.rfl (.inl rfl)
  | true =>
    obtain ⟨c, hc, hretag⟩ := toInt_retag_of_msb_set hmsb
    -- Of the two alternatives only the distance is left.
    rw [hretag, ediv_two_pow_modEq_iff (shiftCount_lt a _) _ hc]
    exact (or_iff_right Bool.noConfusion).symm

/-- **Two's complement makes the operators on patterns blind to the sign.** Sum, difference,
complement and shift to the left have the same pattern under either sign, and so do quotient and
remainder of operands whose top bit is clear. The shift to the right has it exactly where the top
bit is clear or the masked distance is zero. The distance is an `i32` on both sides. -/
theorem retag_operators {a b : Value} (h : b.type = a.type) (d : BitVec 32) :
    RetagsTo (a.add b) (a.retag.add b.retag) ∧
    RetagsTo (a.sub b) (a.retag.sub b.retag) ∧
    RetagsTo a.not a.retag.not ∧
    RetagsTo (a.shl ⟨.i32, d⟩) (a.retag.shl ⟨.i32, d⟩) ∧
    (a.bits.msb = false → b.bits.msb = false →
      DivisionRetags .div a.type b (a.div b) (a.retag.div b.retag) ∧
      DivisionRetags .mod a.type b (a.mod b) (a.retag.mod b.retag)) ∧
    ∃ v w, a.shr ⟨.i32, d⟩ = .ok v ∧ a.retag.shr ⟨.i32, d⟩ = .ok w ∧
      (w = v.retag ↔ a.bits.msb = false ∨ d.toNat % a.type.width = 0) := by
  refine ⟨add_retag h, sub_retag h, not_retag a, shl_retag a d, ?_, shr_retag a d⟩
  intro ha hb
  exact ⟨div_retag h ha hb, mod_retag h ha hb⟩

/-- Two positive `i32`, and the least of all divided by `-1`, whose top bits are set: what is
`-2147483648` with a sign is zero without. -/
theorem retag_operators_i32 :
    (RetagsTo (add ⟨.i32, 7⟩ ⟨.i32, 2⟩) (add ⟨.u32, 7⟩ ⟨.u32, 2⟩) ∧
      DivisionRetags .div .i32 ⟨.i32, 2⟩ (div ⟨.i32, 7⟩ ⟨.i32, 2⟩) (div ⟨.u32, 7⟩ ⟨.u32, 2⟩)) ∧
    RetagsTo (add ⟨.i32, 0x80000000⟩ ⟨.i32, 0xffffffff⟩)
      (add ⟨.u32, 0x80000000⟩ ⟨.u32, 0xffffffff⟩) ∧
    ∃ v w, shr ⟨.i32, 0x80000000⟩ ⟨.i32, 33⟩ = .ok v ∧ shr ⟨.u32, 0x80000000⟩ ⟨.i32, 33⟩ = .ok w ∧
      w ≠ v.retag := by
  obtain ⟨hadd, -, -, -, hdivide, -⟩ :=
    retag_operators (a := ⟨.i32, 7⟩) (b := ⟨.i32, 2⟩) rfl 0
  obtain ⟨hleast, -, -, -, -, v, w, hv, hw, hiff⟩ :=
    retag_operators (a := ⟨.i32, 0x80000000⟩) (b := ⟨.i32, 0xffffffff⟩) rfl 33
  exact ⟨⟨hadd, (hdivide (by decide) (by decide)).1⟩, hleast, v, w, hv, hw,
    mt hiff.mp (by decide)⟩

end Value

end FixedWidth
