import FixedWidth.Tally
import FixedWidth.Verdict

/-!
# Reports

What came out of a run: how many scenarios passed, which ones failed and why, and a tally for every
group. The three are kept side by side, so a report can also hold counts that no run produces;
merging only adds up and appends.

In the program: the matrix runner's `ScenarioFailure` (`Failure`) and `MatrixReport` with `total`,
`is_success`, `merge` and its display text (`text`). There `merge` changes a report in place.
`record` is what one turn of the loop in `run_matrix` does to the report.
-/

namespace FixedWidth

/-- A scenario that did not come out as expected. -/
structure Failure where
  name : String
  group : String
  reason : String
  deriving DecidableEq, Repr

/-- The outcome of a run. -/
structure Report where
  passed : Nat := 0
  /-- The failures in the order of the run. -/
  failures : List Failure := []
  groups : Tallies := .empty
  deriving DecidableEq

namespace Report

instance : Inhabited Report := ⟨{}⟩

/-- The number of scenarios. -/
def total (report : Report) : Nat := report.passed + report.failures.length

/-- Whether no scenario failed. -/
def isSuccess (report : Report) : Bool := report.failures.isEmpty

/-- The report of two runs, one after the other. -/
def merge (report other : Report) : Report where
  passed := report.passed + other.passed
  failures := report.failures ++ other.failures
  groups := report.groups.merge other.groups

/-- The report with the verdict on one more scenario. -/
def record (report : Report) (s : Scenario) : Verdict → Report
  | .passed =>
    { report with
      passed := report.passed + 1
      groups := report.groups.add s.group ⟨1, 0⟩ }
  | .failed reason =>
    { report with
      failures := report.failures ++ [⟨s.name, s.group, reason⟩]
      groups := report.groups.add s.group ⟨0, 1⟩ }

/-- The line about a group. -/
def groupLine (entry : GroupTally) : String :=
  entry.group ++ ": " ++ Numeral.decimalText entry.tally.passed ++ " okay, " ++
    Numeral.decimalText entry.tally.failed ++ " NOT okay"

/-- The line about a failure. -/
def failureLine (failure : Failure) : String :=
  "  " ++ failure.name ++ " NOT okay: " ++ failure.reason

/-- The last line, about the whole run. -/
def totalLine (report : Report) : String :=
  Numeral.decimalText report.passed ++ "/" ++ Numeral.decimalText report.total ++
    " scenarios okay"

/-- The lines of the report: the groups in their order, then the failures, then the total. -/
def lines (report : Report) : List String :=
  report.groups.entries.map groupLine ++ report.failures.map failureLine ++ [report.totalLine]

/-- The report as text; no line break stands at its end. -/
def text (report : Report) : String := "\n".intercalate report.lines

end Report

end FixedWidth
