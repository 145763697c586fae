import FixedWidth.Evaluation
import FixedWidth.Proofs.Meaning

/-!
# Operators on integers

What each operator does to the integers of its operands, errors included. Every operator has one
equation of the same form: the promotion decides the type or the error, and the result is
`Value.ofInt` of an operation on integers (`add_eq`, `sub_eq`, `neg_eq`, `not_eq`, `shl_eq`,
`shr_eq`, `div_eq`, `mod_eq`). The division is that of the resized operands, since a negative `i32`
beside a `u64` is divided as what it becomes there; the test for zero is that of the divisor as it
was given.

Where the promotion is known there is nothing to decide, and each operator has a second equation
without it (`add_of_arithmetic` and its kin).
-/

namespace FixedWidth

namespace Promotion

/-- The operators of the arithmetic table. -/
theorem binaryResult_eq_ok_iff {op : Operator} (hop : binaryRules? op = some arithmeticRules)
    {left right type : IntType} :
    binaryResult op left right = .ok type ↔ arithmetic left right = some type := by
  unfold binaryResult arithmetic
  rw [hop]
  cases h : lookup arithmeticRules left right with
  | none => simp [h]
  | some found => simp [h]

/-- Without a common type an arithmetic operator is refused, and the error names the operand types.
-/
theorem binaryResult_of_arithmetic_none {op : Operator}
    (hop : binaryRules? op = some arithmeticRules) {left right : IntType}
    (h : arithmetic left right = none) :
    binaryResult op left right = .error (.unrepresentable op [left, right]) := by
  have hlookup : lookup arithmeticRules left right = none := h
  unfold binaryResult
  rw [hop]
  simp only [hlookup]

/-- A result meets the operand on the right once more without being promoted again. -/
theorem arithmetic_absorb {left right type : IntType} (h : arithmetic left right = some type) :
    arithmetic type right = some type := by
  revert h
  cases left <;> cases right <;> cases type <;> decide

/-- A type is its own promotion. -/
theorem arithmetic_self (t : IntType) : arithmetic t t = some t := by
  cases t <;> decide

theorem arithmetic_of_type {a b : Value} {t : IntType} (ha : a.type = t) (hb : b.type = t) :
    arithmetic a.type b.type = some t := by
  rw [ha, hb, arithmetic_self]

/-- The distance of a shift is an `i32`, and any value can be shifted. -/
theorem binaryResult_shift {op : Operator}
    (hop : binaryRules? op = some shiftRules) (t : IntType) :
    binaryResult op t .i32 = .ok t := by
  unfold binaryResult
  rw [hop]
  cases t <;> rfl

theorem unaryResult_not (operand : IntType) : unaryResult .not operand = .ok operand := by
  cases operand <;> decide

theorem unaryResult_neg_of_signed {operand : IntType} (h : operand.signed = true) :
    unaryResult .neg operand = .ok operand := by
  revert h
  cases operand <;> decide

end Promotion

namespace Value

/-! ## Sums, differences, negations -/

/-- Promotion hands the integers over unchanged, reduced to the width of the result. -/
theorem promote_eq (op : Operator) (left right : Value) :
    promote op left right = (Promotion.binaryResult op left.type right.type).map fun t =>
      ⟨t, BitVec.ofInt t.width left.toInt, BitVec.ofInt t.width right.toInt⟩ := by
  unfold promote
  congr 1
  funext t
  exact congrArg₂ (Promoted.mk t) (bits_resize left t) (bits_resize right t)

/-- The sum of patterns stands for the sum of the integers, reduced to the promoted type. -/
theorem add_eq (left right : Value) :
    left.add right = (Promotion.binaryResult .add left.type right.type).map fun t =>
      ofInt t (left.toInt + right.toInt) := by
  rw [add, promote_eq]
  cases Promotion.binaryResult .add left.type right.type with
  | error e => rfl
  | ok t =>
    simp only [Except.map, ofInt]
    rw [BitVec.ofInt_add]

theorem sub_eq (left right : Value) :
    left.sub right = (Promotion.binaryResult .sub left.type right.type).map fun t =>
      ofInt t (left.toInt - right.toInt) := by
  rw [sub, promote_eq]
  cases Promotion.binaryResult .sub left.type right.type with
  | error e => rfl
  | ok t =>
    simp only [Except.map, ofInt]
    rw [Int.sub_eq_add_neg, BitVec.ofInt_add, BitVec.ofInt_neg, BitVec.sub_eq_add_neg]

/-- Zero minus a pattern stands for the negative of the integer. -/
theorem neg_eq (operand : Value) :
    operand.neg = (Promotion.unaryResult .neg operand.type).map fun t =>
      ofInt t (-operand.toInt) := by
  unfold neg
  congr 1
  funext t
  rw [ofInt, BitVec.ofInt_neg]
  exact congrArg (fun x => (⟨t, -x⟩ : Value)) (bits_resize operand t)

/-- Flipping every bit takes an integer to its mirror image about `-1/2`. -/
theorem not_eq (operand : Value) : operand.not = .ok (ofInt operand.type (-1 - operand.toInt)) := by
  rw [not, Promotion.unaryResult_not]
  show Except.ok (⟨operand.type, ~~~operand.bits⟩ : Value) = _
  -- Flipping is negation less one, and that one is the pattern of `-1` added.
  have hneg : ~~~operand.bits = BitVec.ofInt operand.type.width (-1 - operand.toInt) := by
    rw [show -1 - operand.toInt = -operand.toInt + -1 by omega, BitVec.ofInt_add,
      BitVec.ofInt_neg, ← bits_eq_ofInt, BitVec.neg_eq_not_add, BitVec.add_assoc]
    have hone : BitVec.ofNat operand.type.width 1 + BitVec.ofInt operand.type.width (-1) = 0 := by
      rw [← BitVec.ofInt_ofNat, ← BitVec.ofInt_add]
      rfl
    rw [hone]
    exact (BitVec.add_zero _).symm
  rw [hneg, ofInt]

/-! ## Shifts -/

/-- The count of a shift is the distance reduced to less than a width, from above zero also where
the distance is negative. -/
theorem shiftCount_eq_emod {distance : Value} (hd : distance.type = .i32) (value : Value) :
    shiftCount value distance = (distance.toInt % value.type.width).toNat := by
  have hpattern : (distance.pattern : Int) ≡ distance.toInt [ZMOD value.type.width] := by
    refine distance.pattern_modEq_toInt.of_dvd ?_
    rw [hd]
    cases value.type <;> decide
  rw [shiftCount_eq_mod, ← hpattern.eq]
  exact (Int.toNat_natCast _).symm

/-- A shift to the left multiplies the integer by a power of two, and reduces the product. -/
theorem shl_eq (value distance : Value) :
    value.shl distance = (Promotion.binaryResult .shl value.type distance.type).map fun _ =>
      ofInt value.type (value.toInt * 2 ^ shiftCount value distance) := by
  unfold shl
  congr 1
  funext _
  rw [ofInt, BitVec.ofInt_mul, ← bits_eq_ofInt, BitVec.shiftLeft_eq_mul_twoPow]
  congr 2
  rw [← BitVec.toNat_inj, BitVec.toNat_twoPow, BitVec.toNat_ofInt]
  exact_mod_cast rfl

/-- On either kind of type a shift to the right is a division that rounds down. -/
theorem shr_eq (value distance : Value) :
    value.shr distance = (Promotion.binaryResult .shr value.type distance.type).map fun _ =>
      ofInt value.type (value.toInt / 2 ^ shiftCount value distance) := by
  unfold shr
  congr 1
  funext _
  -- The two shifts of bit vectors are quotients, one of signed and one of unsigned integers.
  cases hs : value.type.signed with
  | true =>
    rw [if_pos rfl, toInt_of_signed hs, ofInt,
      ← BitVec.ofInt_toInt (x := value.bits.sshiftRight _), BitVec.toInt_sshiftRight,
      Int.shiftRight_eq_div_pow]
    exact_mod_cast rfl
  | false =>
    rw [if_neg (by decide), toInt_of_unsigned hs, ofInt]
    congr 1
    rw [← BitVec.toNat_inj, BitVec.toNat_ushiftRight, Nat.shiftRight_eq_div_pow]
    have hlt : value.bits.toNat / 2 ^ shiftCount value distance < 2 ^ value.type.width :=
      Nat.lt_of_le_of_lt (Nat.div_le_self _ _) value.bits.isLt
    have hcast : (value.bits.toNat : Int) / 2 ^ shiftCount value distance =
        ((value.bits.toNat / 2 ^ shiftCount value distance : Nat) : Int) := by
      push_cast
      rfl
    rw [hcast, BitVec.ofInt_natCast, BitVec.toNat_ofNat, Nat.mod_eq_of_lt hlt]

/-! ## Divisions -/

/-- Only the pattern of zeros stands for zero, on signed types, too. -/
theorem bits_eq_zero_iff (v : Value) : v.bits = 0 ↔ v.toInt = 0 := by
  cases hs : v.type.signed with
  | true =>
    rw [toInt_of_signed hs, ← BitVec.toInt_inj]
    exact Iff.of_eq (congrArg _ BitVec.toInt_zero)
  | false =>
    rw [toInt_of_unsigned hs, ← BitVec.toNat_inj]
    exact Int.natCast_eq_zero.symm

/-- A division that computes `exact` on signed and on unsigned patterns computes it on integers. -/
theorem divide_eq {op : Operator}
    (hop : Promotion.binaryRules? op = some Promotion.arithmeticRules)
    {onSigned onUnsigned : {w : Nat} → BitVec w → BitVec w → BitVec w} {exact : Int → Int → Int}
    (hsigned : ∀ {w : Nat} (a b : BitVec w), onSigned a b = BitVec.ofInt w (exact a.toInt b.toInt))
    (hunsigned : ∀ {w : Nat} (a b : BitVec w),
      onUnsigned a b = BitVec.ofInt w (exact a.toNat b.toNat))
    (left right : Value) :
    divide op onSigned onUnsigned left right =
      (Promotion.binaryResult op left.type right.type).bind fun t =>
        if right.toInt = 0 then .error (.divisionByZero op left.type right.type)
        else .ok (ofInt t (exact (left.resize t).toInt (right.resize t).toInt)) := by
  unfold divide
  rw [promote_eq]
  cases h : Promotion.binaryResult op left.type right.type with
  | error e => rfl
  | ok t =>
    have hwidth := Promotion.width_le_of_arithmetic ((Promotion.binaryResult_eq_ok_iff hop).mp h)
    -- The test looks at the promoted divisor, but promotion never narrows and so makes no zero.
    have hzero : BitVec.ofInt t.width right.toInt = 0 ↔ right.toInt = 0 := by
      rw [← toInt_resize_eq_zero_iff hwidth.2, resize_eq_ofInt]
      exact bits_eq_zero_iff (ofInt t right.toInt)
    simp only [Except.map, Except.bind]
    by_cases hr : right.toInt = 0
    · rw [if_pos (hzero.mpr hr), if_pos hr]
    · rw [if_neg (fun hb => hr (hzero.mp hb)), if_neg hr, resize_eq_ofInt, resize_eq_ofInt]
      cases hs : t.signed with
      | true =>
        rw [if_pos rfl, hsigned, toInt_of_signed (v := ofInt t left.toInt) hs,
          toInt_of_signed (v := ofInt t right.toInt) hs]
        rfl
      | false =>
        rw [if_neg (by decide), hunsigned, toInt_of_unsigned (v := ofInt t left.toInt) hs,
          toInt_of_unsigned (v := ofInt t right.toInt) hs]
        rfl

/-- The one quotient that is out of range, that of the least value by `-1`, comes back as its
pattern. -/
theorem div_eq (left right : Value) :
    left.div right = (Promotion.binaryResult .div left.type right.type).bind fun t =>
      if right.toInt = 0 then .error (.divisionByZero .div left.type right.type)
      else .ok (ofInt t ((left.resize t).toInt.tdiv (right.resize t).toInt)) := by
  refine divide_eq rfl (fun {w} a b => ?_) (fun {w} a b => ?_) left right
  · have hwrap : (a.sdiv b).toInt ≡ a.toInt.tdiv b.toInt [ZMOD 2 ^ w] := by
      rw [BitVec.toInt_sdiv, Int.ModEq]
      exact_mod_cast Int.bmod_emod
    rw [← ofInt_eq_ofInt_iff.mpr hwrap, BitVec.ofInt_toInt]
  · rw [← Int.ofNat_tdiv, BitVec.ofInt_natCast, ← BitVec.toNat_udiv,
      BitVec.ofNat_toNat, BitVec.setWidth_eq]
    rfl

/-- The remainder of patterns stands for that of the truncated quotient of the integers. -/
theorem mod_eq (left right : Value) :
    left.mod right = (Promotion.binaryResult .mod left.type right.type).bind fun t =>
      if right.toInt = 0 then .error (.divisionByZero .mod left.type right.type)
      else .ok (ofInt t ((left.resize t).toInt.tmod (right.resize t).toInt)) := by
  refine divide_eq rfl (fun {w} a b => ?_) (fun {w} a b => ?_) left right
  · rw [← BitVec.toInt_srem, BitVec.ofInt_toInt]
  · rw [← Int.ofNat_tmod, BitVec.ofInt_natCast, ← BitVec.toNat_umod,
      BitVec.ofNat_toNat, BitVec.setWidth_eq]
    rfl

/-! ## Operators at a known type -/

section

variable {a b : Value} {t : IntType}

/-- Where there is a promoted type, operands of any two types add up in it. -/
theorem add_of_arithmetic (h : Promotion.arithmetic a.type b.type = some t) :
    a.add b = .ok (ofInt t (a.toInt + b.toInt)) := by
  rw [add_eq, (Promotion.binaryResult_eq_ok_iff rfl).mpr h]
  rfl

theorem sub_of_arithmetic (h : Promotion.arithmetic a.type b.type = some t) :
    a.sub b = .ok (ofInt t (a.toInt - b.toInt)) := by
  rw [sub_eq, (Promotion.binaryResult_eq_ok_iff rfl).mpr h]
  rfl

/-- At a promoted type the divisor is asked first, whichever operand it was promoted from. -/
theorem div_of_arithmetic (h : Promotion.arithmetic a.type b.type = some t) :
    a.div b =
      if b.toInt = 0 then .error (.divisionByZero .div a.type b.type)
      else .ok (ofInt t ((a.resize t).toInt.tdiv (b.resize t).toInt)) := by
  rw [div_eq, (Promotion.binaryResult_eq_ok_iff rfl).mpr h]
  rfl

theorem mod_of_arithmetic (h : Promotion.arithmetic a.type b.type = some t) :
    a.mod b =
      if b.toInt = 0 then .error (.divisionByZero .mod a.type b.type)
      else .ok (ofInt t ((a.resize t).toInt.tmod (b.resize t).toInt)) := by
  rw [mod_eq, (Promotion.binaryResult_eq_ok_iff rfl).mpr h]
  rfl

/-- Operands of one type add up in it. -/
theorem add_of_type (ha : a.type = t) (hb : b.type = t) :
    a.add b = .ok (ofInt t (a.toInt + b.toInt)) :=
  add_of_arithmetic (Promotion.arithmetic_of_type ha hb)

theorem sub_of_type (ha : a.type = t) (hb : b.type = t) :
    a.sub b = .ok (ofInt t (a.toInt - b.toInt)) :=
  sub_of_arithmetic (Promotion.arithmetic_of_type ha hb)

/-- Operands of one type are not promoted, so their own integers are divided. -/
theorem div_of_type (ha : a.type = t) (hb : b.type = t) :
    a.div b = if b.toInt = 0 then .error (.divisionByZero .div t t)
      else .ok (ofInt t (a.toInt.tdiv b.toInt)) := by
  have hra : a.resize t = a := ha ▸ a.resize_self
  have hrb : b.resize t = b := hb ▸ b.resize_self
  rw [div_of_arithmetic (Promotion.arithmetic_of_type ha hb), ha, hb, hra, hrb]

theorem mod_of_type (ha : a.type = t) (hb : b.type = t) :
    a.mod b = if b.toInt = 0 then .error (.divisionByZero .mod t t)
      else .ok (ofInt t (a.toInt.tmod b.toInt)) := by
  have hra : a.resize t = a := ha ▸ a.resize_self
  have hrb : b.resize t = b := hb ▸ b.resize_self
  rw [mod_of_arithmetic (Promotion.arithmetic_of_type ha hb), ha, hb, hra, hrb]

theorem neg_of_signed (hs : b.type.signed = true) : b.neg = .ok (ofInt b.type (-b.toInt)) := by
  rw [neg_eq, Promotion.unaryResult_neg_of_signed hs]
  rfl

/-- With an `i32` as distance a shift to the right always has a value: the floor of a quotient. -/
theorem shr_of_i32 (v : Value) {d : Value} (hd : d.type = .i32) :
    v.shr d = .ok (ofInt v.type (v.toInt / 2 ^ shiftCount v d)) := by
  rw [shr_eq, hd, Promotion.binaryResult_shift rfl]
  rfl

theorem shl_of_i32 (v : Value) {d : Value} (hd : d.type = .i32) :
    v.shl d = .ok (ofInt v.type (v.toInt * 2 ^ shiftCount v d)) := by
  rw [shl_eq, hd, Promotion.binaryResult_shift rfl]
  rfl

end

end Value

end FixedWidth
