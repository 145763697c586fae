import FixedWidth.Scenario

/-!
# Verdicts

Whether an outcome is the one that a scenario expects, and if not, why. The type of a value counts:
equal integers of two types are two values. Of an expected error only the kind counts.

In the program: the matrix runner's `Outcome` (`Verdict`) and `check` (`judge`), case by case.
`ofOutcome` has no counterpart: it is the expectation that an outcome meets, by which
`judge_eq_passed_iff` says all that a verdict depends on.
-/

namespace FixedWidth

/-- What is said about a scenario that has been run. -/
inductive Verdict where
  | passed
  | failed (reason : String)
  deriving DecidableEq, Repr

/-- Whether the scenario passed. -/
def Verdict.isPassed : Verdict → Bool
  | passed => true
  | failed _ => false

namespace Expectation

/-- The verdict on an outcome. -/
def judge : Expectation → Except EvalError Evaluated → Verdict
  | value expected, .ok actual =>
    if actual.value = expected then .passed
    else .failed ("expected " ++ expected.literal ++ ", got " ++ actual.value.described)
  | value expected, .error e =>
    .failed ("expected " ++ expected.literal ++ ", got error: " ++ e.message)
  | error kind, .error e =>
    if e.kind = kind then .passed
    else .failed ("expected " ++ kind.label ++ " error, got: " ++ e.message)
  | error kind, .ok actual =>
    .failed ("expected " ++ kind.label ++ " error, got " ++ actual.value.literal)

/-- What an outcome would have to be expected as. -/
def ofOutcome : Except EvalError Evaluated → Expectation
  | .ok actual => value actual.value
  | .error e => error e.kind

/-- A scenario passes exactly if it expects what its outcome would have to be expected as. -/
theorem judge_eq_passed_iff (expect : Expectation) (outcome : Except EvalError Evaluated) :
    expect.judge outcome = .passed ↔ expect = ofOutcome outcome := by
  cases expect <;> cases outcome <;> simp [judge, ofOutcome, eq_comm]

end Expectation

end FixedWidth
