import FixedWidth.Proofs.CommandOutput
import FixedWidth.Proofs.Grammar
import FixedWidth.Proofs.ResultType

/-!
# Two ways to evaluate

An operation can be put into a scenario, where its outcome is compared as a value, or onto a command
line, where its operands are written as literals and its outcome is printed. Both say the same.

- `ofArguments_evalArguments`: written operands are read back, whatever their number, and none of
  them is taken for an option;
- `Value.described_injective`: what is printed about a value tells its type as well as its integer;
- `evaluateInto_error`: an operation on values never fails as a bad literal does.

> `unique_expectation_is_printed`: a scenario passes with one expectation only, and that is the one
> that the command line prints, or the kind of the error with which it ends.
-/

namespace FixedWidth

/-! ## What is printed about a value -/

namespace Value

/-- No blank stands in a canonical literal, so nothing is trimmed off it. -/
theorem isBlank_of_mem_literal {v : Value} {c : Char} (hc : c ∈ v.literal.toList) :
    Text.isBlank c = false := by
  rw [Literal.toList_literal, List.mem_append, List.mem_cons] at hc
  rcases hc with hname | rfl | hdecimal
  · exact (Literal.plain_of_mem_name hname).1
  · rfl
  · exact (Literal.plain_of_mem_signedDecimal hdecimal).1

/-- A literal has no blanks, so it ends where the first blank stands. -/
theorem takeWhile_described (v : Value) :
    v.described.toList.takeWhile (fun c => !Text.isBlank c) = v.literal.toList := by
  have hsplit : v.described.toList = v.literal.toList ++ ' ' :: ("(" ++ v.hex ++ ")").toList := by
    unfold described
    simp only [String.toList_append, List.append_assoc]
    rfl
  rw [hsplit, List.takeWhile_append_of_pos]
  · exact List.append_nil _
  · intro c hc
    rw [isBlank_of_mem_literal hc]
    rfl

/-- The line about a value tells the value, by the literal in front of its first blank. -/
theorem described_injective {v w : Value} (h : v.described = w.described) : v = w := by
  refine literal_injective (String.toList_inj.mp ?_)
  rw [← takeWhile_described, h, takeWhile_described]

end Value

/-! ## Operands as arguments -/

/-- What values are written as are literals of them. -/
theorem literals_literal (operands : List Value) :
    Literals (operands.map Value.literal) operands := by
  refine List.forall₂_map_left_iff.mpr (List.forall₂_same.mpr ?_)
  intro v _
  exact Literal.read_literal v

namespace Command

open CommandM

/-- The arguments that put a result into a destination, if there is one. -/
def destination : Option IntType → List String
  | none => []
  | some target => ["--into", target.name]

/-- The arguments that ask for an operation on values, which are written as literals. -/
def evalArguments (op : Operator) (operands : List Value) (target : Option IntType) :
    List String :=
  "eval" :: op.name :: (operands.map Value.literal ++ destination target)

/-- The arguments that are written for an operation are read as a request for it. -/
theorem ofArguments_evalArguments (op : Operator) (operands : List Value)
    (target : Option IntType) :
    ofArguments (evalArguments op operands target) = .ok (.eval ⟨op, operands, target, false⟩) := by
  have hdestination : destination target = Request.Piece.written (target.toList.map .into) := by
    cases target <;> rfl
  unfold evalArguments
  rw [hdestination]
  exact ofArguments_literals (literals_literal operands) op target

variable {op : Operator} {operands : List Value} {target : Option IntType}

/-- An operation with a value prints the line about it and nothing else. -/
theorem eval_ok {evaluated : Evaluated} (h : evaluateInto op operands target = .ok evaluated)
    (files : Files) :
    output files (evalArguments op operands target) none =
      Text.bytes (evaluated.value.described ++ "\n") ∧
    result files (evalArguments op operands target) none = .ok true := by
  have hyields := yields_performEval_ok ⟨op, operands, target, false⟩ h
  have htext : resultText evaluated false = evaluated.value.described ++ "\n" :=
    String.append_empty
  rw [htext] at hyields
  exact eq_of_yields (yields_invoke (ofArguments_evalArguments ..) hyields)

/-- An operation without a value prints nothing, and its error is that of the command. -/
theorem eval_error {e : EvalError} (h : evaluateInto op operands target = .error e)
    (files : Files) :
    output files (evalArguments op operands target) none = [] ∧
    result files (evalArguments op operands target) none = .error (.evaluation e) :=
  eq_of_yields (yields_invoke (ofArguments_evalArguments ..)
    (yields_performEval_error ⟨op, operands, target, false⟩ h))

end Command

/-- Operands that are values already are no bad literals. -/
theorem evaluateInto_error {op : Operator} {operands : List Value} {target : Option IntType}
    {e : EvalError} (h : evaluateInto op operands target = .error e) :
    e.kind ≠ .invalidLiteral := by
  unfold evaluateInto at h
  cases hvalue : evaluate op operands with
  | error cause =>
    rw [hvalue] at h
    obtain rfl := Except.error.inj h
    rcases evaluate_error hvalue with rfl | ⟨_, _, rfl⟩ | ⟨_, _, rfl⟩ <;> exact nofun
  | ok evaluated =>
    simp only [hvalue] at h
    -- Once there is a value, only its conversion can fail.
    cases target with
    | none => cases h
    | some type =>
      unfold Evaluated.storeIn Value.convert at h
      cases hconvert : evaluated.value.convert? type with
      | some v =>
        simp only [hconvert] at h
        cases h
      | none =>
        simp only [hconvert] at h
        obtain rfl := Except.error.inj h
        exact nofun

namespace Command

/-- The value that an outcome has to be expected as is the one that is printed. -/
theorem ofOutcome_eq_value_iff (files : Files) (op : Operator) (operands : List Value)
    (target : Option IntType) (v : Value) :
    Expectation.ofOutcome (evaluateInto op operands target) = .value v ↔
      result files (evalArguments op operands target) none = .ok true ∧
      output files (evalArguments op operands target) none =
        Text.bytes (v.described ++ "\n") := by
  cases h : evaluateInto op operands target with
  | ok evaluated =>
    obtain ⟨houtput, hresult⟩ := eval_ok h files
    rw [houtput, hresult]
    constructor
    · intro hvalue
      obtain rfl := Expectation.value.inj hvalue
      exact ⟨rfl, rfl⟩
    · rintro ⟨-, hprinted⟩
      -- The line tells the value, as no two values are described alike.
      have hline := Text.bytes_injective hprinted
      have hdescribed : evaluated.value.described = v.described := by
        simpa [← String.toList_inj] using hline
      rw [← Value.described_injective hdescribed]
      rfl
  | error e =>
    obtain ⟨-, hresult⟩ := eval_error h files
    rw [hresult]
    exact ⟨nofun, nofun⟩

/-- The kind of errors that it has to be expected as is that of the error that is reported. -/
theorem ofOutcome_eq_error_iff (files : Files) (op : Operator) (operands : List Value)
    (target : Option IntType) (kind : ErrorKind) :
    Expectation.ofOutcome (evaluateInto op operands target) = .error kind ↔
      ∃ cause, cause.kind = kind ∧
        result files (evalArguments op operands target) none = .error (.evaluation cause) ∧
        output files (evalArguments op operands target) none = [] := by
  cases h : evaluateInto op operands target with
  | ok evaluated =>
    obtain ⟨-, hresult⟩ := eval_ok h files
    rw [hresult]
    exact ⟨nofun, nofun⟩
  | error e =>
    obtain ⟨houtput, hresult⟩ := eval_error h files
    rw [houtput, hresult]
    constructor
    · intro hkind
      exact ⟨e, Expectation.error.inj hkind, rfl, rfl⟩
    · rintro ⟨cause, hkind, hcause, -⟩
      obtain rfl := CommandError.evaluation.inj (Except.error.inj hcause)
      exact congrArg Expectation.error hkind

/-- **A scenario passes with what the command line prints, and with nothing else.** -/
theorem unique_expectation_is_printed (files : Files) (op : Operator) (operands : List Value)
    (target : Option IntType) :
    ∃ e : Expectation,
      (∀ name group expect,
        (Scenario.mk name group op operands target expect).run.value = .passed ↔ expect = e) ∧
      (∀ v, e = .value v ↔
        result files (evalArguments op operands target) none = .ok true ∧
        output files (evalArguments op operands target) none =
          Text.bytes (v.literal ++ " (" ++ v.hex ++ ")" ++ "\n")) ∧
      (∀ kind, e = .error kind ↔ ∃ cause, cause.kind = kind ∧
        result files (evalArguments op operands target) none = .error (.evaluation cause) ∧
        output files (evalArguments op operands target) none = []) ∧
      e ≠ .error .invalidLiteral := by
  refine ⟨.ofOutcome (evaluateInto op operands target), ?_,
    ofOutcome_eq_value_iff files op operands target,
    ofOutcome_eq_error_iff files op operands target, ?_⟩
  · intro name group expect
    rw [Scenario.value_run]
    exact Expectation.judge_eq_passed_iff ..
  · cases h : evaluateInto op operands target with
    | ok evaluated => exact nofun
    | error e =>
      intro hkind
      exact evaluateInto_error h (Expectation.error.inj hkind)

end Command

end FixedWidth
