import FixedWidth.Proofs.Arithmetic

/-!
# Result types

What the promotion tables foretell about an operation before any of its operands has a value. A
combination that the tables refuse is refused with the same error, whatever the values; one that
they accept has a value of the type that they name, unless the operation is a division by zero.
`Foretold` says this of one outcome; it holds of each operator because every one of them begins
with the look-up (`foretold_map`, `foretold_division`).

> `result_predicts_evaluate`: the tables decide the error or the type of every evaluation, whatever
> the number of operands, and only a zero divisor is left to the values.
-/

namespace FixedWidth

/-- Whether an operation has a divisor that is zero. -/
def DividesByZero (op : Operator) : List Value → Prop
  | [_, right] => (op = .div ∨ op = .mod) ∧ right.toInt = 0
  | _ => False

instance (op : Operator) : (operands : List Value) → Decidable (DividesByZero op operands)
  | [] => inferInstanceAs (Decidable False)
  | [_] => inferInstanceAs (Decidable False)
  | [_, right] => inferInstanceAs (Decidable ((op = .div ∨ op = .mod) ∧ right.toInt = 0))
  | _ :: _ :: _ :: _ => inferInstanceAs (Decidable False)

namespace Promotion

/-- A shift that is accepted has the type of its value. -/
theorem binaryResult_of_shift {op : Operator} (hop : binaryRules? op = some shiftRules)
    {value distance type : IntType} (h : binaryResult op value distance = .ok type) :
    type = value := by
  unfold binaryResult at h
  rw [hop] at h
  cases hl : lookup shiftRules value distance with
  | none => simp [hl] at h
  | some found =>
    simp only [hl] at h
    rw [← Except.ok.inj h]
    exact (lookup_shiftRules hl).1

/-- The errors of the tables are about the number of operands or about their types. -/
theorem result_error {op : Operator} {types : List IntType} {e : EvalError}
    (h : result op types = .error e) :
    e = .unrepresentable op types ∨ ∃ expected actual, e = .arityMismatch op expected actual := by
  unfold result at h
  split at h
  next operand =>
    unfold unaryResult at h
    split at h
    · exact Or.inr ⟨2, 1, (Except.error.inj h).symm⟩
    · split at h
      · exact Or.inl (Except.error.inj h).symm
      · cases h
  next left right =>
    unfold binaryResult at h
    split at h
    · exact Or.inr ⟨1, 2, (Except.error.inj h).symm⟩
    · split at h
      · exact Or.inl (Except.error.inj h).symm
      · cases h
  next => exact Or.inr ⟨op.arity, types.length, (Except.error.inj h).symm⟩

end Promotion

/-- Whether an outcome is one that a result type foretells. -/
inductive Foretold (op : Operator) (operands : List Value) :
    Except EvalError IntType → Except EvalError Evaluated → Prop where
  /-- What has no result type fails for the same reason. -/
  | error (e : EvalError) : Foretold op operands (.error e) (.error e)
  /-- What has one has a value of it. -/
  | value (v : Value) (h : ¬ DividesByZero op operands) :
    Foretold op operands (.ok v.type) (.ok ⟨op, v⟩)
  /-- A zero divisor is met only after the types have been accepted. -/
  | zero {left right : Value} (type : IntType) (h : DividesByZero op operands)
    (hoperands : operands = [left, right]) :
    Foretold op operands (.ok type) (.error (.divisionByZero op left.type right.type))

/-! ## Operators -/

/-- An operator that cannot fail once its result type is known. -/
theorem foretold_map {op : Operator} {operands : List Value} {result : Except EvalError IntType}
    (hzero : ¬ DividesByZero op operands) (f : IntType → Value)
    (hf : ∀ t, result = .ok t → (f t).type = t) :
    Foretold op operands result ((result.map f).map (⟨op, ·⟩)) := by
  cases result with
  | error e => exact .error e
  | ok t =>
    have hvalue : Foretold op operands (.ok (f t).type) (.ok ⟨op, f t⟩) := .value (f t) hzero
    rw [hf t rfl] at hvalue
    exact hvalue

/-- A division, which asks for the divisor once the result type is known. -/
theorem foretold_division {op : Operator} (hop : op = .div ∨ op = .mod) (left right : Value)
    (result : Except EvalError IntType) (f : IntType → Value) (hf : ∀ t, (f t).type = t) :
    Foretold op [left, right] result
      ((result.bind fun t =>
        if right.toInt = 0 then .error (.divisionByZero op left.type right.type)
        else .ok (f t)).map (⟨op, ·⟩)) := by
  cases result with
  | error e => exact .error e
  | ok t =>
    show Foretold _ _ _ ((if right.toInt = 0 then _ else _ : Except EvalError Value).map _)
    by_cases hr : right.toInt = 0
    · rw [if_pos hr]
      exact .zero t ⟨hop, hr⟩ rfl
    · rw [if_neg hr]
      have hzero : ¬ DividesByZero op [left, right] := fun hz => hr hz.2
      have hvalue : Foretold op [left, right] (.ok (f t).type) (.ok ⟨op, f t⟩) :=
        .value (f t) hzero
      rw [hf t] at hvalue
      exact hvalue

theorem not_dividesByZero {op : Operator} (hop : ¬ (op = .div ∨ op = .mod))
    (operands : List Value) : ¬ DividesByZero op operands := by
  intro h
  unfold DividesByZero at h
  split at h
  · exact hop h.1
  · exact h

/-- The result type foretells what any operator makes of two operands. -/
theorem foretold_binary (op : Operator) (left right : Value) :
    Foretold op [left, right] (Promotion.binaryResult op left.type right.type)
      ((evaluateBinary op left right).map (⟨op, ·⟩)) := by
  -- Only the two divisions ask more of their operands than the types.
  cases op with
  | add =>
    rw [evaluateBinary, Value.add_eq]
    exact foretold_map (not_dividesByZero (by decide) _) _ fun _ _ => rfl
  | sub =>
    rw [evaluateBinary, Value.sub_eq]
    exact foretold_map (not_dividesByZero (by decide) _) _ fun _ _ => rfl
  | div =>
    rw [evaluateBinary, Value.div_eq]
    exact foretold_division (Or.inl rfl) left right _ _ fun _ => rfl
  | mod =>
    rw [evaluateBinary, Value.mod_eq]
    exact foretold_division (Or.inr rfl) left right _ _ fun _ => rfl
  | shl =>
    rw [evaluateBinary, Value.shl_eq]
    exact foretold_map (not_dividesByZero (by decide) _) _
      fun _ h => (Promotion.binaryResult_of_shift rfl h).symm
  | shr =>
    rw [evaluateBinary, Value.shr_eq]
    exact foretold_map (not_dividesByZero (by decide) _) _
      fun _ h => (Promotion.binaryResult_of_shift rfl h).symm
  | neg => exact .error _
  | not => exact .error _

theorem foretold_unary (op : Operator) (operand : Value) :
    Foretold op [operand] (Promotion.unaryResult op operand.type)
      ((evaluateUnary op operand).map (⟨op, ·⟩)) := by
  cases op with
  | neg =>
    rw [evaluateUnary, Value.neg_eq]
    exact foretold_map (not_dividesByZero (by decide) _) _ fun _ _ => rfl
  | not =>
    rw [evaluateUnary, Value.not_eq, Promotion.unaryResult_not]
    exact .value (Value.ofInt operand.type (-1 - operand.toInt)) (not_dividesByZero (by decide) _)
  | _ => exact .error _

/-! ## Operations -/

/-- Any other number of operands is refused on both sides, with the same count. -/
theorem foretold (op : Operator) (operands : List Value) :
    Foretold op operands (Promotion.result op (operands.map Value.type))
      (evaluate op operands) := by
  rcases operands with _ | ⟨a, _ | ⟨b, _ | ⟨c, rest⟩⟩⟩
  · exact .error _
  · exact foretold_unary op a
  · exact foretold_binary op a b
  · have hlength : ((a :: b :: c :: rest).map Value.type).length = (a :: b :: c :: rest).length :=
      List.length_map _
    show Foretold op _ (.error (.arityMismatch op op.arity
      ((a :: b :: c :: rest).map Value.type).length)) _
    rw [hlength]
    exact .error _

namespace Foretold

variable {op : Operator} {operands : List Value} {result : Except EvalError IntType}
  {outcome : Except EvalError Evaluated}

theorem eq_error (h : Foretold op operands result outcome) {e : EvalError}
    (hresult : result = .error e) : outcome = .error e := by
  cases h with
  | error => exact congrArg Except.error (Except.error.inj hresult)
  | value => cases hresult
  | zero => cases hresult

/-- Where a type is foretold and the divisor is not zero, there is a value of it. -/
theorem eq_value (h : Foretold op operands result outcome) {t : IntType}
    (hresult : result = .ok t) (hzero : ¬ DividesByZero op operands) :
    ∃ v, outcome = .ok ⟨op, v⟩ ∧ v.type = t := by
  cases h with
  | error => cases hresult
  | value v => exact ⟨v, rfl, Except.ok.inj hresult⟩
  | zero _ hz => exact absurd hz hzero

/-- Where a type is foretold and the divisor is zero, the error names the types of the operands. -/
theorem eq_zero (h : Foretold op operands result outcome) {t : IntType} (hresult : result = .ok t)
    {left right : Value} (hoperands : operands = [left, right])
    (hzero : DividesByZero op operands) :
    outcome = .error (.divisionByZero op left.type right.type) := by
  cases h with
  | error => cases hresult
  | value _ hnot => exact absurd hzero hnot
  | zero _ _ hsame =>
    rw [hoperands] at hsame
    cases hsame
    rfl

/-- An error comes from the tables or from a divisor. -/
theorem error_cases (h : Foretold op operands result outcome) {e : EvalError}
    (houtcome : outcome = .error e) :
    result = .error e ∨ ∃ left right, e = .divisionByZero op left right := by
  cases h with
  | error => exact Or.inl (congrArg Except.error (Except.error.inj houtcome))
  | value => cases houtcome
  | zero => exact Or.inr ⟨_, _, (Except.error.inj houtcome).symm⟩

/-- Where no divisor is zero, the outcome has the very type or error that was foretold. -/
theorem map_type (h : Foretold op operands result outcome) (hzero : ¬ DividesByZero op operands) :
    outcome.map (·.value.type) = result := by
  cases h with
  | error => rfl
  | value => rfl
  | zero _ hz => exact absurd hz hzero

end Foretold

/-- Evaluation fails for one of three reasons. -/
theorem evaluate_error {op : Operator} {operands : List Value} {e : EvalError}
    (h : evaluate op operands = .error e) :
    e = .unrepresentable op (operands.map Value.type) ∨
      (∃ expected actual, e = .arityMismatch op expected actual) ∨
      ∃ left right, e = .divisionByZero op left right := by
  rcases (foretold op operands).error_cases h with htables | hzero
  · rcases Promotion.result_error htables with htypes | harity
    · exact Or.inl htypes
    · exact Or.inr (Or.inl harity)
  · exact Or.inr (Or.inr hzero)

/-- **The tables foretell every evaluation.** -/
theorem result_predicts_evaluate (op : Operator) (operands : List Value) :
    (∀ e, Promotion.result op (operands.map Value.type) = .error e →
      evaluate op operands = .error e) ∧
    (∀ t, Promotion.result op (operands.map Value.type) = .ok t →
      (¬ DividesByZero op operands → ∃ v, evaluate op operands = .ok ⟨op, v⟩ ∧ v.type = t) ∧
      ∀ left right, (op = .div ∨ op = .mod) → operands = [left, right] → right.toInt = 0 →
        evaluate op operands = .error (.divisionByZero op left.type right.type)) ∧
    (∀ others : List Value, others.map Value.type = operands.map Value.type →
      ¬ DividesByZero op operands → ¬ DividesByZero op others →
      (evaluate op others).map (·.value.type) = (evaluate op operands).map (·.value.type)) ∧
    (∀ left right, (op = .div ∨ op = .mod) → operands = [left, right] →
      Promotion.arithmetic left.type right.type = none →
      evaluate op operands = .error (.unrepresentable op [left.type, right.type])) ∧
    (∀ source target, evaluate op operands ≠ .error (.invalidConversion source target)) ∧
    ∀ cause, evaluate op operands ≠ .error (.invalidLiteral cause) := by
  have h := foretold op operands
  refine ⟨fun e he => h.eq_error he, ?_, ?_, ?_, ?_, ?_⟩
  · intro t ht
    refine ⟨h.eq_value ht, ?_⟩
    intro left right hop hoperands hr
    exact h.eq_zero ht hoperands (hoperands ▸ ⟨hop, hr⟩)
  · intro others htypes hzero hzero'
    rw [h.map_type hzero, (foretold op others).map_type hzero', htypes]
  · intro left right hop hoperands hnone
    refine h.eq_error ?_
    rw [hoperands]
    show Promotion.binaryResult op left.type right.type = _
    refine Promotion.binaryResult_of_arithmetic_none ?_ hnone
    rcases hop with rfl | rfl <;> rfl
  · intro source target he
    rcases evaluate_error he with h | ⟨_, _, h⟩ | ⟨_, _, h⟩ <;> cases h
  · intro cause he
    rcases evaluate_error he with h | ⟨_, _, h⟩ | ⟨_, _, h⟩ <;> cases h

/-- A refused type, a remainder beside one of a zero divisor, and a zero divisor that the tables do
not come to. -/
theorem result_predicts_evaluate_mixed :
    (Promotion.result .neg [.u64] = .error (.unrepresentable .neg [.u64]) ∧
      evaluate .neg [⟨.u64, 5⟩] = .error (.unrepresentable .neg [.u64])) ∧
    (Promotion.result .mod [.i32, .u64] = .ok .u64 ∧
      (¬ DividesByZero .mod [⟨.i32, 0xfffffff9⟩, ⟨.u64, 3⟩] ∧
        ∃ v, evaluate .mod [⟨.i32, 0xfffffff9⟩, ⟨.u64, 3⟩] = .ok ⟨.mod, v⟩ ∧ v.type = .u64) ∧
      evaluate .mod [⟨.i32, 0xfffffff9⟩, ⟨.u64, 0⟩] = .error (.divisionByZero .mod .i32 .u64)) ∧
    (¬ DividesByZero .mod [⟨.i32, 1⟩, ⟨.u64, 8⟩] ∧
      (evaluate .mod [⟨.i32, 1⟩, ⟨.u64, 8⟩]).map (·.value.type) =
        (evaluate .mod [⟨.i32, 0xfffffff9⟩, ⟨.u64, 3⟩]).map (·.value.type)) ∧
    (Promotion.arithmetic .i64 .u64 = none ∧
      evaluate .div [⟨.i64, 1⟩, ⟨.u64, 0⟩] = .error (.unrepresentable .div [.i64, .u64])) := by
  have hneg := result_predicts_evaluate .neg [⟨.u64, 5⟩]
  have hmod := result_predicts_evaluate .mod [⟨.i32, 0xfffffff9⟩, ⟨.u64, 3⟩]
  have hzero := result_predicts_evaluate .mod [⟨.i32, 0xfffffff9⟩, ⟨.u64, 0⟩]
  have hdiv := result_predicts_evaluate .div [⟨.i64, 1⟩, ⟨.u64, 0⟩]
  refine ⟨⟨by rfl, hneg.1 _ (by rfl)⟩, ⟨by rfl, ⟨by decide, (hmod.2.1 .u64 (by rfl)).1 (by decide)⟩,
    (hzero.2.1 .u64 (by rfl)).2 _ _ (Or.inr rfl) rfl (by decide)⟩, ⟨by decide, ?_⟩,
    by decide, hdiv.2.2.2.1 _ _ (Or.inl rfl) rfl (by decide)⟩
  exact hmod.2.2.1 [⟨.i32, 1⟩, ⟨.u64, 8⟩] rfl (by decide) (by decide)

end FixedWidth
