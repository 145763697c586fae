import FixedWidth.Proofs.Arithmetic
import FixedWidth.Proofs.Conversion

/-!
# Resizing and promotion

Between sixteen pairs of types, a pattern is extended by its sign or by zeros, truncated, or just
read in another way, and all of it comes to one thing: the integer of the result is the one of its
class modulo two to the width of the target (`eq_toInt_resize_iff`). So a way through another type
does not matter as long as that type is no narrower than the last one.

Promotion resizes both operands to a type that can hold either of them, with one exception: an `i32`
beside a `u64` goes to `u64`, which has none of its negative integers
(`Promotion.canHold_of_arithmetic`).

> `resize_reduces`
-/

namespace FixedWidth

namespace Value

variable {v w : Value} {t u : IntType}

/-! ## Resizing -/

/-- The integer of a resized value is the only one of the target's range that is congruent to the
integer of the value. -/
theorem eq_toInt_resize_iff {n : Int} :
    n = (v.resize t).toInt ↔ t.InRange n ∧ n ≡ v.toInt [ZMOD 2 ^ t.width] := by
  have hrange : t.InRange (v.resize t).toInt := (v.resize t).toInt_inRange
  have hmod := v.toInt_resize_modEq t
  constructor
  · rintro rfl
    exact ⟨hrange, hmod⟩
  · rintro ⟨hn, hcongruent⟩
    exact hn.eq_of_modEq hrange (hcongruent.trans hmod.symm)

/-- A type that is no narrower than the target can be passed through. -/
theorem resize_resize (v : Value) (h : u.width ≤ t.width) :
    (v.resize t).resize u = v.resize u := by
  rw [resize_eq_ofInt v t, resize_ofInt h, ← resize_eq_ofInt]

/-- A type that is no narrower than the value loses nothing. -/
theorem resize_back (h : v.type.width ≤ t.width) : (v.resize t).resize v.type = v := by
  rw [resize_resize v h, resize_self]

end Value

/-! ## Promotion -/

namespace Promotion

/-- The type that arithmetic takes place in can hold either operand, but for an `i32` in `u64`. -/
theorem canHold_of_arithmetic {left right t : IntType} (h : arithmetic left right = some t) :
    (Value.canHold left t = true ∨ left = .i32 ∧ t = .u64) ∧
      (Value.canHold right t = true ∨ right = .i32 ∧ t = .u64) := by
  revert h
  cases left <;> cases right <;> cases t <;> decide

/-- Only the operators of the arithmetic table and shifts have a type for two operands. -/
theorem arithmetic_of_binaryResult {op : Operator} (hshl : op ≠ .shl) (hshr : op ≠ .shr)
    {left right t : IntType} (h : binaryResult op left right = .ok t) :
    arithmetic left right = some t := by
  cases op with
  | add => exact (binaryResult_eq_ok_iff rfl).mp h
  | sub => exact (binaryResult_eq_ok_iff rfl).mp h
  | div => exact (binaryResult_eq_ok_iff rfl).mp h
  | mod => exact (binaryResult_eq_ok_iff rfl).mp h
  | shl => exact absurd rfl hshl
  | shr => exact absurd rfl hshr
  | neg => cases h
  | not => cases h

end Promotion

namespace Promoted

/-- The left operand as a value of the promoted type. -/
def leftValue (p : Promoted) : Value := ⟨p.type, p.left⟩

/-- The right operand as a value of the promoted type. -/
def rightValue (p : Promoted) : Value := ⟨p.type, p.right⟩

end Promoted

namespace Value

variable {v w left right : Value} {t : IntType}

/-- Whether a value has no place in the type that it is promoted to: a negative `i32` in `u64`. -/
def WrapsAt (v : Value) (t : IntType) : Prop := v.type = .i32 ∧ v.toInt < 0 ∧ t = .u64

instance (v : Value) (t : IntType) : Decidable (v.WrapsAt t) :=
  inferInstanceAs (Decidable (_ ∧ _ ∧ _))

/-- What promotion to a type makes of an operand: a value of that type with the integer of the
operand, unless the operand wraps. -/
structure PromotesTo (v : Value) (t : IntType) (w : Value) : Prop where
  type_eq : w.type = t
  toInt_eq_iff : w.toInt = v.toInt ↔ ¬ v.WrapsAt t
  toInt_of_wraps : v.WrapsAt t → w.toInt = v.toInt + 2 ^ 64

/-- An operand keeps its integer where it does not wrap, and is a modulus larger where it does. -/
theorem PromotesTo.of_toInt (htype : w.type = t)
    (h : w.toInt = if v.WrapsAt t then v.toInt + 2 ^ 64 else v.toInt) : PromotesTo v t w := by
  by_cases hwraps : v.WrapsAt t
  · rw [if_pos hwraps] at h
    refine ⟨htype, iff_of_false ?_ (not_not_intro hwraps), fun _ => h⟩
    omega
  · rw [if_neg hwraps] at h
    exact ⟨htype, iff_of_true h hwraps, fun hwrap => absurd hwrap hwraps⟩

/-- A negative `i32` grows by two to the 64 when it becomes a `u64`. -/
theorem toInt_resize_of_i32 (hv : v.type = .i32) :
    (v.resize .u64).toInt = if v.toInt < 0 then v.toInt + 2 ^ 64 else v.toInt := by
  have hrange : IntType.InRange .i32 v.toInt := hv ▸ v.toInt_inRange
  obtain ⟨hlow, hhigh⟩ := hrange
  have hmin : IntType.minValue .i32 = -2 ^ 31 := rfl
  have hmax : IntType.maxValue .i32 = 2 ^ 31 - 1 := rfl
  have hmin' : IntType.minValue .u64 = 0 := rfl
  have hmax' : IntType.maxValue .u64 = 2 ^ 64 - 1 := rfl
  symm
  rw [eq_toInt_resize_iff]
  split
  next hneg =>
    refine ⟨⟨by omega, by omega⟩, ?_⟩
    exact Int.modEq_iff_dvd.mpr ⟨-1, by show v.toInt - (v.toInt + 2 ^ 64) = 2 ^ 64 * -1; omega⟩
  next hnonneg => exact ⟨⟨by omega, by omega⟩, Int.ModEq.rfl⟩

/-- Resizing to a promoted type is promotion to it. -/
theorem promotesTo_resize (h : canHold v.type t = true ∨ v.type = .i32 ∧ t = .u64) :
    PromotesTo v t (v.resize t) := by
  refine .of_toInt rfl ?_
  rcases h with hhold | ⟨hv, rfl⟩
  · -- A type that can hold the operand is none that it wraps at.
    have hkeeps : ¬ v.WrapsAt t := by
      rintro ⟨hv, -, rfl⟩
      rw [hv] at hhold
      exact absurd hhold (by decide)
    rw [if_neg hkeeps, (convert_of_canHold hhold).2]
  · have hwraps : v.WrapsAt .u64 ↔ v.toInt < 0 :=
      ⟨fun hwraps => hwraps.2.1, fun hneg => ⟨hv, hneg, rfl⟩⟩
    rw [toInt_resize_of_i32 hv]
    simp only [hwraps]

/-- What promotion returns are the operands, resized to the result type of the operator. -/
theorem promote_eq_ok {op : Operator} {p : Promoted} (h : promote op left right = .ok p) :
    Promotion.binaryResult op left.type right.type = .ok p.type ∧
      p.leftValue = left.resize p.type ∧ p.rightValue = right.resize p.type := by
  unfold promote at h
  cases hresult : Promotion.binaryResult op left.type right.type with
  | error e =>
    rw [hresult] at h
    cases h
  | ok t =>
    rw [hresult] at h
    obtain rfl := Except.ok.inj h
    exact ⟨rfl, rfl, rfl⟩

/-- **Resizing reduces the integer of a value modulo two to the width of the target, and promotion
reduces nothing but a negative `i32` beside a `u64`.** -/
theorem resize_reduces :
    (∀ (v : Value) (t : IntType) (n : Int),
      n = (v.resize t).toInt ↔ t.InRange n ∧ n ≡ v.toInt [ZMOD 2 ^ t.width]) ∧
    (∀ (v : Value) (t u : IntType), u.width ≤ t.width → (v.resize t).resize u = v.resize u) ∧
    (∀ (v : Value) (t : IntType), v.type.width ≤ t.width → (v.resize t).resize v.type = v) ∧
    ∀ (op : Operator) (left right : Value) (p : Promoted), op ≠ .shl → op ≠ .shr →
      promote op left right = .ok p →
        PromotesTo left p.type p.leftValue ∧ PromotesTo right p.type p.rightValue := by
  refine ⟨?_, ?_, ?_, ?_⟩
  · intro v t n
    exact eq_toInt_resize_iff
  · intro v t u h
    exact v.resize_resize h
  · intro v t h
    exact resize_back h
  · intro op left right p hshl hshr h
    obtain ⟨hresult, hleft, hright⟩ := promote_eq_ok h
    obtain ⟨hholds, hholds'⟩ := Promotion.canHold_of_arithmetic
      (Promotion.arithmetic_of_binaryResult hshl hshr hresult)
    rw [hleft, hright]
    exact ⟨promotesTo_resize hholds, promotesTo_resize hholds'⟩

/-- A `u64` that is brought to `u32` by way of `i64`, an `i32` that comes back from `u64`, the least
`i32` beside a `u64`, where it wraps, and beside a `u32`, where it does not. -/
theorem resize_reduces_least :
    (IntType.width .u32 ≤ IntType.width .i64 ∧
      ((⟨.u64, 0xfedcba9876543210⟩ : Value).resize .i64).resize .u32 =
        (⟨.u64, 0xfedcba9876543210⟩ : Value).resize .u32) ∧
    (IntType.width .i32 ≤ IntType.width .u64 ∧
      ((⟨.i32, 0x80000000⟩ : Value).resize .u64).resize .i32 = ⟨.i32, 0x80000000⟩) ∧
    (Operator.mod ≠ .shl ∧ Operator.mod ≠ .shr ∧
      promote .mod ⟨.i32, 0x80000000⟩ ⟨.u64, 7⟩ = .ok ⟨.u64, 0xffffffff80000000, 7⟩ ∧
      PromotesTo ⟨.i32, 0x80000000⟩ .u64 ⟨.u64, 0xffffffff80000000⟩ ∧
      PromotesTo ⟨.u64, 7⟩ .u64 ⟨.u64, 7⟩) ∧
    (promote .add ⟨.u32, 7⟩ ⟨.i32, 0x80000000⟩ = .ok ⟨.i64, 7, 0xffffffff80000000⟩ ∧
      PromotesTo ⟨.i32, 0x80000000⟩ .i64 ⟨.i64, 0xffffffff80000000⟩) := by
  obtain ⟨-, hthrough, hback, hpromote⟩ := resize_reduces
  have hwraps := hpromote .mod ⟨.i32, 0x80000000⟩ ⟨.u64, 7⟩ ⟨.u64, 0xffffffff80000000, 7⟩
    (by decide) (by decide) rfl
  have hkeeps := hpromote .add ⟨.u32, 7⟩ ⟨.i32, 0x80000000⟩ ⟨.i64, 7, 0xffffffff80000000⟩
    (by decide) (by decide) rfl
  exact ⟨⟨by decide, hthrough _ _ _ (by decide)⟩, ⟨by decide, hback _ _ (by decide)⟩,
    ⟨by decide, by decide, rfl, hwraps⟩, rfl, hkeeps.2⟩

end Value

end FixedWidth
