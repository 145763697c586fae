import FixedWidth.Log
import FixedWidth.Report

/-!
# Running scenarios

A scenario is run by evaluating its operation, storing the result in its destination, and judging
the outcome. A matrix is run from first to last, and the log tells what a reader who follows it has
to know: where a group begins, how each scenario came out, and the total.

In the program: `run_scenario` and `run_matrix` of the matrix runner. The loop of the latter keeps
the current group and the report in two variables; `runFrom` is this loop as a recursion with the
two as arguments.
-/

namespace FixedWidth

namespace Scenario

/-- What the operation of the scenario comes to. -/
def outcome (s : Scenario) : Except EvalError Evaluated :=
  evaluateInto s.op s.operands s.assign

/-- The verdict on the scenario. -/
def verdict (s : Scenario) : Verdict := s.expect.judge s.outcome

/-- Runs the scenario. -/
def run (s : Scenario) : Logged Verdict :=
  return s.expect.judge (← evaluateIntoLogged s.op s.operands s.assign)

/-- The log does not change the verdict. -/
@[simp] theorem value_run (s : Scenario) : s.run.value = s.verdict := by
  simp [run, verdict, outcome]

/-- What the log says about the verdict. -/
def event (s : Scenario) : Verdict → Event
  | .passed => .scenarioPassed s.name s.describe
  | .failed reason => .scenarioFailed s.name s.describe reason

end Scenario

namespace Matrix

/-- Tells that a group begins, unless the scenario before was of the same group. -/
def announce (previous : Option String) (group : String) : Logged Unit :=
  if previous = some group then pure () else Logged.tell (.groupStarted group)

/-- Runs scenarios after one of the group `previous`, adding to a report. -/
def runFrom (previous : Option String) (report : Report) : List Scenario → Logged Report
  | [] => pure report
  | s :: rest => do
    announce previous s.group
    let verdict ← s.run
    Logged.tell (s.event verdict)
    runFrom (some s.group) (report.record s verdict) rest

/-- Runs the matrix. -/
def run (m : Matrix) : Logged Report := do
  let report ← runFrom none {} m.scenarios
  Logged.tell (.matrixComplete report.passed report.total)
  pure report

/-- The report comes from the verdicts alone. -/
theorem value_runFrom (previous : Option String) (report : Report) (scenarios : List Scenario) :
    (runFrom previous report scenarios).value =
      scenarios.foldl (fun report s => report.record s s.verdict) report := by
  induction scenarios generalizing previous report with
  | nil => rfl
  | cons s rest ih => simp [runFrom, ih]

/-- The report of a matrix comes from the verdicts on its scenarios. -/
theorem value_run (m : Matrix) :
    m.run.value = m.scenarios.foldl (fun report s => report.record s s.verdict) {} :=
  value_runFrom none {} m.scenarios

end Matrix

end FixedWidth
