import FixedWidth.Proofs.Arithmetic

/-!
# Conversions

What happens to a value that is stored in a destination. The pairs of types that may be converted
are listed one by one, and they are the pairs of which the range of the source lies in that of the
destination (`canHold_iff`). From this a conversion is known by what it does to integers alone:

> `convert_eq_ok_iff`: a value is converted to another one exactly if the types allow it, and then
> to the value of the destination's type with the same integer.

Everything else follows without a look at patterns, whichever way they are extended: that the types
alone decide, that no integer is lost, and that two steps are as good as one.
-/

namespace FixedWidth

namespace IntType

/-- Whether every integer of one type is one of another. -/
def Within (source target : IntType) : Prop := ∀ n, source.InRange n → target.InRange n

theorem Within.trans {source middle target : IntType} (h : source.Within middle)
    (h' : middle.Within target) : source.Within target := by
  intro n hn
  exact h' n (h n hn)

end IntType

namespace Value

variable {u v w : Value} {source middle target : IntType}

/-- A target takes a source only if its range includes that of the source. -/
theorem inRange_of_canHold (h : canHold source target = true) {n : Int}
    (hn : source.InRange n) : target.InRange n := by
  have hmin : target.minValue ≤ source.minValue := by
    revert h
    cases source <;> cases target <;> decide
  have hmax : source.maxValue ≤ target.maxValue := by
    revert h
    cases source <;> cases target <;> decide
  exact ⟨Int.le_trans hmin hn.1, Int.le_trans hn.2 hmax⟩

/-- The two ends of a range decide for all of it. -/
theorem canHold_of_inRange (hmin : target.InRange source.minValue)
    (hmax : target.InRange source.maxValue) : canHold source target = true := by
  revert hmin hmax
  cases source <;> cases target <;> decide

/-- The listed pairs of types are those of which one range includes the other. -/
theorem canHold_iff : canHold source target = true ↔ source.Within target := by
  constructor
  · intro h n hn
    exact inRange_of_canHold h hn
  · intro h
    exact canHold_of_inRange (h _ source.inRange_minValue) (h _ source.inRange_maxValue)

/-- A listed pair resizes the value, and the integer stays. -/
theorem convert_of_canHold (h : canHold v.type target = true) :
    v.convert target = .ok (v.resize target) ∧ (v.resize target).toInt = v.toInt := by
  refine ⟨?_, ?_⟩
  · simp only [convert, convert?, h, if_true]
  · rw [resize_eq_ofInt]
    exact toInt_ofInt (inRange_of_canHold h v.toInt_inRange)

theorem convert_of_not_canHold (h : ¬ canHold v.type target = true) :
    v.convert target = .error (.invalidConversion v.type target) := by
  simp only [convert, convert?, h]
  rfl

/-- A conversion keeps the integer, and the types alone decide whether there is one. -/
theorem convert_eq_ok_iff :
    v.convert target = .ok w ↔ v.type.Within target ∧ w.type = target ∧ w.toInt = v.toInt := by
  rw [← canHold_iff]
  by_cases h : canHold v.type target = true
  · obtain ⟨hconvert, hvalue⟩ := convert_of_canHold h
    rw [hconvert, Except.ok.injEq]
    constructor
    · intro hresize
      subst hresize
      exact ⟨h, rfl, hvalue⟩
    · intro hw
      obtain ⟨-, htype, hw⟩ := hw
      exact ext_toInt htype.symm (hvalue.trans hw.symm)
  · rw [convert_of_not_canHold h]
    exact iff_of_false nofun fun hok => h hok.1

/-- A conversion has a value or names the two types, and the value does not matter for which. -/
theorem convert_cases (v : Value) (target : IntType) :
    (v.type.Within target ∧
        ∃ w, v.convert target = .ok w ∧ w.type = target ∧ w.toInt = v.toInt) ∨
      (¬ v.type.Within target ∧
        v.convert target = .error (.invalidConversion v.type target)) := by
  by_cases h : canHold v.type target = true
  · obtain ⟨hconvert, hvalue⟩ := convert_of_canHold h
    exact .inl ⟨canHold_iff.mp h, v.resize target, hconvert, rfl, hvalue⟩
  · exact .inr ⟨fun hwithin => h (canHold_iff.mpr hwithin), convert_of_not_canHold h⟩

/-- What two values are converted to alike is their common integer. -/
theorem toInt_eq_of_convert (hu : u.convert target = .ok w) (hv : v.convert target = .ok w) :
    u.toInt = v.toInt := by
  obtain ⟨-, -, huw⟩ := convert_eq_ok_iff.mp hu
  obtain ⟨-, -, hvw⟩ := convert_eq_ok_iff.mp hv
  exact huw.symm.trans hvw

/-- The way does not matter, only where it ends. -/
theorem convert_trans (h : v.convert middle = .ok u) (h' : u.convert target = .ok w) :
    v.convert target = .ok w := by
  obtain ⟨hwithin, rfl, hu⟩ := convert_eq_ok_iff.mp h
  obtain ⟨hwithin', htype, hw⟩ := convert_eq_ok_iff.mp h'
  exact convert_eq_ok_iff.mpr ⟨hwithin.trans hwithin', htype, hw.trans hu⟩

end Value

/-! ## Storing a result -/

section

variable {op : Operator} {operands : List Value} {target : IntType} {result : Evaluated}

/-- The destination plays no part in an error of the operation. -/
theorem evaluateInto_of_error {e : EvalError} (h : evaluate op operands = .error e)
    (destination : Option IntType) : evaluateInto op operands destination = .error e := by
  unfold evaluateInto
  rw [h]

/-- A result is stored by converting its value; the operator stays with it. -/
theorem evaluateInto_of_ok (h : evaluate op operands = .ok result) :
    evaluateInto op operands (some target) =
      (result.value.convert target).map (⟨result.op, ·⟩) := by
  unfold evaluateInto
  rw [h]
  rfl

end

/-- **Storing a result keeps its integer, or is refused for the types alone.** Equal conversions
come from one integer, hence from one value where the types are the same: conversion is injective on
the values of a type. The type itself is lost, as an `i32` and a `u32` may become one `i64`. -/
theorem evaluateInto_keeps_integer (op : Operator) (operands : List Value) (target : IntType) :
    (∀ e, evaluate op operands = .error e →
      evaluateInto op operands (some target) = .error e) ∧
    (∀ result, evaluate op operands = .ok result →
      (result.value.type.Within target → ∃ stored,
        evaluateInto op operands (some target) = .ok stored ∧ stored.op = result.op ∧
          stored.value.type = target ∧ stored.value.toInt = result.value.toInt) ∧
      (¬ result.value.type.Within target →
        evaluateInto op operands (some target) =
          .error (.invalidConversion result.value.type target))) ∧
    (∀ v : Value,
      (v.type.Within target ∧
        ∃ w, v.convert target = .ok w ∧ w.type = target ∧ w.toInt = v.toInt) ∨
      (¬ v.type.Within target ∧
        v.convert target = .error (.invalidConversion v.type target))) ∧
    (∀ u v w : Value, u.convert target = .ok w → v.convert target = .ok w → u.toInt = v.toInt) ∧
    (∀ u v w : Value, u.type = v.type → u.convert target = .ok w → v.convert target = .ok w →
      u = v) ∧
    ∀ (u v w : Value) (middle : IntType),
      u.convert middle = .ok v → v.convert target = .ok w → u.convert target = .ok w := by
  refine ⟨?_, ?_, ?_, ?_, ?_, ?_⟩
  · intro e h
    exact evaluateInto_of_error h (some target)
  · intro result h
    rw [evaluateInto_of_ok h]
    rcases result.value.convert_cases target with ⟨hwithin, w, hw, htype, hvalue⟩ | ⟨hnot, herror⟩
    · rw [hw]
      exact ⟨fun _ => ⟨_, rfl, rfl, htype, hvalue⟩, fun hnot => absurd hwithin hnot⟩
    · rw [herror]
      exact ⟨fun hwithin => absurd hwithin hnot, fun _ => rfl⟩
  · intro v
    exact v.convert_cases target
  · intro u v w hu hv
    exact Value.toInt_eq_of_convert hu hv
  · intro u v w htype hu hv
    exact Value.ext_toInt htype (Value.toInt_eq_of_convert hu hv)
  · intro u v w middle h h'
    exact Value.convert_trans h h'

/-- A complement that is extended by its own sign, a sum that is refused although it would fit, a
division by zero, two equal integers of two types that are converted alike, a value that is written
in two ways, and a conversion in two steps. -/
theorem evaluateInto_keeps_integer_complement :
    (evaluate .not [⟨.i32, 1000000000⟩] = .ok ⟨.not, ⟨.i32, 0xc46535ff⟩⟩ ∧
      IntType.Within .i32 .i64 ∧ ∃ stored,
        evaluateInto .not [⟨.i32, 1000000000⟩] (some .i64) = .ok stored ∧ stored.op = .not ∧
          stored.value.type = .i64 ∧ stored.value.toInt = -1000000001) ∧
    (evaluate .add [⟨.i64, 1⟩, ⟨.i32, 0⟩] = .ok ⟨.add, ⟨.i64, 1⟩⟩ ∧
      ¬ IntType.Within .i64 .i32 ∧ IntType.InRange .i32 1 ∧
        evaluateInto .add [⟨.i64, 1⟩, ⟨.i32, 0⟩] (some .i32) =
          .error (.invalidConversion .i64 .i32)) ∧
    (evaluate .div [⟨.u32, 1⟩, ⟨.u32, 0⟩] = .error (.divisionByZero .div .u32 .u32) ∧
      evaluateInto .div [⟨.u32, 1⟩, ⟨.u32, 0⟩] (some .i32) =
        .error (.divisionByZero .div .u32 .u32)) ∧
    (Value.convert ⟨.i32, 5⟩ .i64 = .ok ⟨.i64, 5⟩ ∧ Value.convert ⟨.u32, 5⟩ .i64 = .ok ⟨.i64, 5⟩ ∧
      (Value.mk .i32 5).toInt = (Value.mk .u32 5).toInt) ∧
    (Value.convert ⟨.i32, 0xffffffff⟩ .i64 = .ok (.ofInt .i64 (-1)) ∧
      Value.convert (.ofInt .i32 (-1)) .i64 = .ok (.ofInt .i64 (-1)) ∧
      Value.mk .i32 0xffffffff = .ofInt .i32 (-1)) ∧
    (Value.convert ⟨.u32, 5⟩ .u32 = .ok ⟨.u32, 5⟩ ∧
      Value.convert ⟨.u32, 5⟩ .i64 = .ok ⟨.i64, 5⟩) := by
  have hwithin : IntType.Within .i32 .i64 := Value.canHold_iff.mp rfl
  have hnot : ¬ IntType.Within .i64 .i32 := mt Value.canHold_iff.mpr (by decide)
  have hcomplement := evaluateInto_keeps_integer .not [⟨.i32, 1000000000⟩] .i64
  have hsum := evaluateInto_keeps_integer .add [⟨.i64, 1⟩, ⟨.i32, 0⟩] .i32
  have hzero := evaluateInto_keeps_integer .div [⟨.u32, 1⟩, ⟨.u32, 0⟩] .i32
  obtain ⟨-, hstored, -, hinteger, hinjective, hchain⟩ := hcomplement
  exact ⟨⟨rfl, hwithin, (hstored ⟨.not, ⟨.i32, 0xc46535ff⟩⟩ rfl).1 hwithin⟩,
    ⟨rfl, hnot, by decide, (hsum.2.1 ⟨.add, ⟨.i64, 1⟩⟩ rfl).2 hnot⟩, ⟨rfl, hzero.1 _ rfl⟩,
    ⟨rfl, rfl, hinteger _ _ _ rfl rfl⟩, ⟨rfl, rfl, hinjective _ _ _ rfl rfl rfl⟩,
    ⟨rfl, hchain _ ⟨.u32, 5⟩ _ .u32 rfl rfl⟩⟩

end FixedWidth
