import FixedWidth.Proofs.Conversion
import FixedWidth.Proofs.Division

/-!
# Computing wide and narrowing

An operation on values of 32 bits comes to what the same operation comes to at 64 bits, once the
result is brought back. Converting keeps the integers of the operands (`convert_of_canHold`), so on
both sides the same operation on the same two integers is reduced, first to 64 bits and then to 32
or to 32 at once; `resize_ofInt` says that this makes no difference. What is left is that both sides
do the same to the integers:

- both divide the same integers, and so meet the same zero; the one quotient that wraps at 32 bits
  and does not at 64 has the same low bits;
- a shift by a distance whose bit 5 is clear has the same count at both widths
  (`shiftCount_eq_of_clear`).

> `evaluate_convert_narrows`
-/

namespace FixedWidth

namespace Value

/-- Where bit 5 of the distance is clear, the sixth bit that a wide shift looks at says nothing. -/
theorem shiftCount_eq_of_clear {a b : Value} (ha : a.type.width = 32) (hb : b.type.width = 64)
    {d : BitVec 32} (hd : d.getLsbD 5 = false) :
    shiftCount b ⟨.i32, d⟩ = shiftCount a ⟨.i32, d⟩ := by
  have hbit : d.toNat / 2 ^ 5 % 2 ≠ 1 := by
    intro h
    rw [BitVec.getLsbD, Nat.testBit_eq_decide_div_mod_eq, decide_eq_false_iff_not] at hd
    exact hd h
  rw [shiftCount_eq_mod, shiftCount_eq_mod, ha, hb]
  show d.toNat % 64 = d.toNat % 32
  omega

end Value

/-! ## Two widths -/

/-- Whether an outcome is the error about a zero divisor. -/
def IsDivisionByZero (outcome : Except EvalError Evaluated) : Prop :=
  ∃ op left right, outcome = .error (.divisionByZero op left right)

/-- Whether two outcomes are a narrow and a wide view of one: both complain about a zero divisor, or
the wide value has the narrow one for its low bits. -/
structure Narrows (t : IntType) (narrow wide : Except EvalError Evaluated) : Prop where
  zero_iff : IsDivisionByZero narrow ↔ IsDivisionByZero wide
  value : ¬ IsDivisionByZero narrow →
    ∃ v w, narrow = .ok v ∧ wide = .ok w ∧ w.value.resize t = v.value

namespace Narrows

variable {t T : IntType} {narrow wide : Except EvalError Evaluated} {op : Operator}

/-- Results that are reductions of one integer narrow. -/
theorem of_ofInt (h : t.width ≤ T.width) {n : Int} (hnarrow : narrow = .ok ⟨op, .ofInt t n⟩)
    (hwide : wide = .ok ⟨op, .ofInt T n⟩) : Narrows t narrow wide where
  zero_iff := by
    have hok : ∀ v, ¬ IsDivisionByZero (.ok v) := by
      rintro v ⟨_, _, _, h⟩
      cases h
    rw [hnarrow, hwide]
    exact iff_of_false (hok _) (hok _)
  value _ := ⟨_, _, hnarrow, hwide, Value.resize_ofInt h n⟩

/-- Divisions of the same integers. -/
theorem of_division (h : t.width ≤ T.width) {b n : Int} {l r l' r' : IntType}
    (hnarrow : narrow = if b = 0 then .error (.divisionByZero op l r) else .ok ⟨op, .ofInt t n⟩)
    (hwide : wide = if b = 0 then .error (.divisionByZero op l' r') else .ok ⟨op, .ofInt T n⟩) :
    Narrows t narrow wide := by
  by_cases hb : b = 0
  · rw [if_pos hb] at hnarrow hwide
    have hzero : IsDivisionByZero narrow := ⟨_, _, _, hnarrow⟩
    have hzero' : IsDivisionByZero wide := ⟨_, _, _, hwide⟩
    exact ⟨iff_of_true hzero hzero', fun hnot => absurd hzero hnot⟩
  · rw [if_neg hb] at hnarrow hwide
    exact of_ofInt h hnarrow hwide

end Narrows

/-! ## Operators on operands of one type -/

section

variable {a b : Value} {t : IntType}

/-- The sum of operands of one type. -/
theorem evaluate_add_of_type (ha : a.type = t) (hb : b.type = t) :
    evaluate .add [a, b] = .ok ⟨.add, .ofInt t (a.toInt + b.toInt)⟩ := by
  show (a.add b).map _ = _
  rw [Value.add_of_type ha hb]
  rfl

theorem evaluate_sub_of_type (ha : a.type = t) (hb : b.type = t) :
    evaluate .sub [a, b] = .ok ⟨.sub, .ofInt t (a.toInt - b.toInt)⟩ := by
  show (a.sub b).map _ = _
  rw [Value.sub_of_type ha hb]
  rfl

/-- The quotient of operands of one type, or the error that names it twice. -/
theorem evaluate_div_of_type (ha : a.type = t) (hb : b.type = t) :
    evaluate .div [a, b] = if b.toInt = 0 then .error (.divisionByZero .div t t)
      else .ok ⟨.div, .ofInt t (a.toInt.tdiv b.toInt)⟩ := by
  show (a.div b).map _ = _
  rw [Value.div_of_type ha hb, apply_ite (Except.map _)]
  rfl

theorem evaluate_mod_of_type (ha : a.type = t) (hb : b.type = t) :
    evaluate .mod [a, b] = if b.toInt = 0 then .error (.divisionByZero .mod t t)
      else .ok ⟨.mod, .ofInt t (a.toInt.tmod b.toInt)⟩ := by
  show (a.mod b).map _ = _
  rw [Value.mod_of_type ha hb, apply_ite (Except.map _)]
  rfl

/-- The complement is `-1` minus the integer on every type. -/
theorem evaluate_not_of_type (ha : a.type = t) :
    evaluate .not [a] = .ok ⟨.not, .ofInt t (-1 - a.toInt)⟩ := by
  show a.not.map _ = _
  rw [Value.not_eq, ha]
  rfl

theorem evaluate_neg_of_type (ha : a.type = t) (ht : t.signed = true) :
    evaluate .neg [a] = .ok ⟨.neg, .ofInt t (-a.toInt)⟩ := by
  show a.neg.map _ = _
  rw [Value.neg_of_signed (ha ▸ ht), ha]
  rfl

/-- A shift to the left by the pattern of an `i32`. -/
theorem evaluate_shl_of_type (ha : a.type = t) (d : BitVec 32) :
    evaluate .shl [a, ⟨.i32, d⟩] =
      .ok ⟨.shl, .ofInt t (a.toInt * 2 ^ Value.shiftCount a ⟨.i32, d⟩)⟩ := by
  show (a.shl ⟨.i32, d⟩).map _ = _
  rw [Value.shl_of_i32 a rfl, ha]
  rfl

theorem evaluate_shr_of_type (ha : a.type = t) (d : BitVec 32) :
    evaluate .shr [a, ⟨.i32, d⟩] =
      .ok ⟨.shr, .ofInt t (a.toInt / 2 ^ Value.shiftCount a ⟨.i32, d⟩)⟩ := by
  show (a.shr ⟨.i32, d⟩).map _ = _
  rw [Value.shr_of_i32 a rfl, ha]
  rfl

end

/-! ## The two views of an operation -/

section

variable {a b a' b' : Value} {t T : IntType}

/-- The four operators of arithmetic see nothing but the integers of their operands. -/
theorem narrows_arithmetic (h : t.width ≤ T.width) (ha : a.type = t) (hb : b.type = t)
    (ha' : a'.type = T) (hb' : b'.type = T) (hav : a'.toInt = a.toInt) (hbv : b'.toInt = b.toInt)
    {op : Operator} (hop : op ∈ [.add, .sub, .div, .mod]) :
    Narrows t (evaluate op [a, b]) (evaluate op [a', b']) := by
  simp only [List.mem_cons, List.not_mem_nil, or_false] at hop
  rcases hop with rfl | rfl | rfl | rfl
  · have hwide := evaluate_add_of_type ha' hb'
    rw [hav, hbv] at hwide
    exact .of_ofInt h (evaluate_add_of_type ha hb) hwide
  · have hwide := evaluate_sub_of_type ha' hb'
    rw [hav, hbv] at hwide
    exact .of_ofInt h (evaluate_sub_of_type ha hb) hwide
  · have hwide := evaluate_div_of_type ha' hb'
    rw [hav, hbv] at hwide
    exact .of_division h (evaluate_div_of_type ha hb) hwide
  · have hwide := evaluate_mod_of_type ha' hb'
    rw [hav, hbv] at hwide
    exact .of_division h (evaluate_mod_of_type ha hb) hwide

/-- The complement narrows on every type. -/
theorem narrows_not (h : t.width ≤ T.width) (ha : a.type = t) (ha' : a'.type = T)
    (hav : a'.toInt = a.toInt) : Narrows t (evaluate .not [a]) (evaluate .not [a']) := by
  have hwide := evaluate_not_of_type ha'
  rw [hav] at hwide
  exact .of_ofInt h (evaluate_not_of_type ha) hwide

/-- Negation narrows where both types have a sign. A `u32` is left out: its negative is an `i64` to
begin with. -/
theorem narrows_neg (h : t.width ≤ T.width) (ha : a.type = t) (ha' : a'.type = T)
    (ht : t.signed = true) (hT : T.signed = true) (hav : a'.toInt = a.toInt) :
    Narrows t (evaluate .neg [a]) (evaluate .neg [a']) := by
  have hwide := evaluate_neg_of_type ha' hT
  rw [hav] at hwide
  exact .of_ofInt h (evaluate_neg_of_type ha ht) hwide

/-- Shifts by the same count; to the right, a wide shift brings in what the narrow one does. -/
theorem narrows_shift (h : t.width ≤ T.width) (ha : a.type = t) (ha' : a'.type = T)
    (hav : a'.toInt = a.toInt) {d : BitVec 32}
    (hcount : Value.shiftCount a' ⟨.i32, d⟩ = Value.shiftCount a ⟨.i32, d⟩) :
    Narrows t (evaluate .shl [a, ⟨.i32, d⟩]) (evaluate .shl [a', ⟨.i32, d⟩]) ∧
      Narrows t (evaluate .shr [a, ⟨.i32, d⟩]) (evaluate .shr [a', ⟨.i32, d⟩]) := by
  have hshl := evaluate_shl_of_type ha' d
  have hshr := evaluate_shr_of_type ha' d
  rw [hav, hcount] at hshl hshr
  exact ⟨.of_ofInt h (evaluate_shl_of_type ha d) hshl, .of_ofInt h (evaluate_shr_of_type ha d) hshr⟩

end

/-- **Computing at 64 bits and narrowing is computing at 32 bits.** -/
theorem evaluate_convert_narrows {a b : Value} {t T : IntType} (ha : a.type = t) (hb : b.type = t)
    (ht : t.width = 32) (hT : T.width = 64) (haccepts : Value.canHold t T = true) :
    ∃ a' b', a.convert T = .ok a' ∧ b.convert T = .ok b' ∧
      (∀ op ∈ [.add, .sub, .div, .mod],
        Narrows t (evaluate op [a, b]) (evaluate op [a', b'])) ∧
      Narrows t (evaluate .not [a]) (evaluate .not [a']) ∧
      (t = .i32 → Narrows t (evaluate .neg [a]) (evaluate .neg [a'])) ∧
      ∀ d : BitVec 32, d.getLsbD 5 = false →
        Narrows t (evaluate .shl [a, ⟨.i32, d⟩]) (evaluate .shl [a', ⟨.i32, d⟩]) ∧
        Narrows t (evaluate .shr [a, ⟨.i32, d⟩]) (evaluate .shr [a', ⟨.i32, d⟩]) := by
  have hwidth : t.width ≤ T.width := by omega
  obtain ⟨hconvert, hav⟩ := Value.convert_of_canHold (v := a) (ha ▸ haccepts)
  obtain ⟨hconvert', hbv⟩ := Value.convert_of_canHold (v := b) (hb ▸ haccepts)
  refine ⟨a.resize T, b.resize T, hconvert, hconvert', ?_, ?_, ?_, ?_⟩
  · intro op hop
    exact narrows_arithmetic hwidth ha hb rfl rfl hav hbv hop
  · exact narrows_not hwidth ha rfl hav
  · intro hi32
    -- The only wide type that takes an `i32` is signed, too.
    have hsigned : T.signed = true := by
      subst hi32
      revert hT haccepts
      cases T <;> decide
    exact narrows_neg hwidth ha rfl (hi32 ▸ rfl) hsigned hav
  · intro d hd
    refine narrows_shift hwidth ha rfl hav ?_
    exact Value.shiftCount_eq_of_clear (ha ▸ ht) hT hd

/-- The least `i32` and `-1`, whose quotient wraps at 32 bits only, and a negative distance. -/
theorem evaluate_convert_narrows_least :
    (IntType.width .i32 = 32 ∧ IntType.width .i64 = 64 ∧ Value.canHold .i32 .i64 = true ∧
      (0xffffffdb : BitVec 32).getLsbD 5 = false) ∧
    ∃ a' b', Value.convert ⟨.i32, 0x80000000⟩ .i64 = .ok a' ∧
      Value.convert ⟨.i32, 0xffffffff⟩ .i64 = .ok b' ∧
      Narrows .i32 (evaluate .div [⟨.i32, 0x80000000⟩, ⟨.i32, 0xffffffff⟩])
        (evaluate .div [a', b']) ∧
      Narrows .i32 (evaluate .neg [⟨.i32, 0x80000000⟩]) (evaluate .neg [a']) ∧
      Narrows .i32 (evaluate .shr [⟨.i32, 0x80000000⟩, ⟨.i32, 0xffffffdb⟩])
        (evaluate .shr [a', ⟨.i32, 0xffffffdb⟩]) := by
  obtain ⟨a', b', ha, hb, harith, -, hneg, hshift⟩ :=
    @evaluate_convert_narrows ⟨.i32, 0x80000000⟩ ⟨.i32, 0xffffffff⟩ .i32 .i64 rfl rfl rfl rfl rfl
  exact ⟨⟨rfl, rfl, rfl, by decide⟩, a', b', ha, hb, harith .div (by decide), hneg rfl,
    (hshift 0xffffffdb (by decide)).2⟩

end FixedWidth
