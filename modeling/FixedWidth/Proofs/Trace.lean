import FixedWidth.Proofs.Accounting

/-!
# What the log of a run tells

The log of a matrix is put together from one piece for every scenario, and a piece depends on the
scenario and on the group of the one before it, on nothing else (`Scenario.trace`). A scenario whose
operation has a result tells it even if the destination then refuses it.

- `events_runFrom`: a run tells the pieces one after another, whatever is in the report;
- `traceAfter_append`: what is told about a second half depends on the first through its last group;
- `exists_log_eq_opening`: and there is only one thing that can change, the announcement in front;
- `Scenario.warnings_trace`: a piece has a warning exactly where the report has a failure.

> `log_exact_trace`: the log, event by event and line by line; its warnings are the failures of the
> report; and cutting the matrix in two leaves it as it is, but for one announcement.
-/

namespace FixedWidth

/-- An event as a reader of the log sees it. -/
structure LogLine where
  level : Level
  message : String
  fields : List (String × String)
  deriving DecidableEq, Repr

/-- The line of an event. -/
def Event.line (event : Event) : LogLine := ⟨event.level, event.message, event.fields⟩

/-- Whether an event is a warning. -/
def Event.isWarning (event : Event) : Bool := event.level = .warn

/-- Whether an event warns of a failure. -/
def Event.WarnsOf (event : Event) (failure : Failure) : Prop :=
  ∃ expr, event = .scenarioFailed failure.name expr failure.reason

namespace Scenario

/-- What is told about the operation: its result, as it is before the destination is looked at. -/
def traceResult (s : Scenario) : List Event :=
  match evaluate s.op s.operands with
  | .ok result => [.evaluated s.op s.operands result.value]
  | .error _ => []

/-- What is told about the outcome. -/
def traceVerdict (s : Scenario) : Event :=
  match s.run.value with
  | .passed => .scenarioPassed s.name s.describe
  | .failed reason => .scenarioFailed s.name s.describe reason

/-- What is told about a scenario that comes after one of the group `previous`. -/
def trace (previous : Option String) (s : Scenario) : List Event :=
  (if previous = some s.group then [] else [.groupStarted s.group]) ++ s.traceResult ++
    [s.traceVerdict]

/-- The lines of what is told about a scenario, in words. -/
def lines (previous : Option String) (s : Scenario) : List LogLine :=
  (if previous = some s.group then [] else [⟨.info, "---" ++ s.group ++ ":", []⟩]) ++
    (match evaluate s.op s.operands with
      | .ok result =>
        [⟨.debug, "evaluated",
          [("op", s.op.name),
            ("operands", "[" ++ ", ".intercalate (s.operands.map Event.operandText) ++ "]"),
            ("result", result.value.literal), ("bits", result.value.hex)]⟩]
      | .error _ => []) ++
    [match s.run.value with
      | .passed => ⟨.debug, s.name ++ " okay", [("expr", s.describe)]⟩
      | .failed reason =>
        ⟨.warn, s.name ++ " NOT okay: " ++ reason, [("expr", s.describe)]⟩]

theorem map_line_trace (previous : Option String) (s : Scenario) :
    (s.trace previous).map Event.line = s.lines previous := by
  unfold trace lines traceResult traceVerdict
  rw [List.map_append, List.map_append]
  refine congrArg₂ (· ++ ·) (congrArg₂ (· ++ ·) ?_ ?_) ?_
  · split <;> rfl
  · cases evaluate s.op s.operands <;> rfl
  · cases s.run.value <;> rfl

/-- The operation tells its result, if there is one, and nothing of the destination. -/
theorem events_evaluateIntoLogged (s : Scenario) :
    (evaluateIntoLogged s.op s.operands s.assign).events = s.traceResult := by
  unfold evaluateIntoLogged evaluateLogged traceResult
  cases evaluate s.op s.operands <;> rfl

/-- So does a run of the scenario; the verdict is told by the run of the matrix. -/
theorem events_run (s : Scenario) : s.run.events = s.traceResult := by
  have hevents := s.events_evaluateIntoLogged
  rw [run, Logged.events_bind, hevents]
  exact List.append_nil _

theorem event_verdict (s : Scenario) : s.event s.run.value = s.traceVerdict := by
  unfold event traceVerdict
  cases s.run.value <;> rfl

/-- A scenario gives one warning if it fails, and none if it passes. -/
theorem warnings_trace (previous : Option String) (s : Scenario) :
    List.Forall₂ Event.WarnsOf ((s.trace previous).filter Event.isWarning) s.failure?.toList := by
  have hopening : (if previous = some s.group then [] else
      [Event.groupStarted s.group]).filter Event.isWarning = [] := by
    split <;> rfl
  have hresult : s.traceResult.filter Event.isWarning = [] := by
    unfold traceResult
    cases evaluate s.op s.operands <;> rfl
  unfold trace
  rw [List.filter_append, List.filter_append, hopening, hresult]
  unfold traceVerdict failure?
  cases s.run.value with
  | passed => exact .nil
  | failed reason => exact .cons ⟨s.describe, rfl⟩ .nil

end Scenario

namespace Matrix

/-- What is told about scenarios that come after one of the group `previous`: each of them comes
after the group of the one before it. -/
def traceAfter (previous : Option String) (scenarios : List Scenario) : List Event :=
  (List.zipWith Scenario.trace (previous :: scenarios.map fun s => some s.group) scenarios).flatten

theorem traceAfter_cons (previous : Option String) (s : Scenario) (rest : List Scenario) :
    traceAfter previous (s :: rest) = s.trace previous ++ traceAfter (some s.group) rest := rfl

/-- A run tells the pieces of its scenarios in order; the report that it adds to plays no part. -/
theorem events_runFrom (previous : Option String) (report : Report) (scenarios : List Scenario) :
    (runFrom previous report scenarios).events = traceAfter previous scenarios := by
  induction scenarios generalizing previous report with
  | nil => rfl
  | cons s rest ih =>
    have hannounce : (announce previous s.group).events =
        if previous = some s.group then [] else [.groupStarted s.group] := by
      unfold announce
      split <;> rfl
    rw [traceAfter_cons, Scenario.trace, runFrom]
    simp only [Logged.events_bind, hannounce, Scenario.events_run, Logged.events_tell, ih,
      Scenario.event_verdict, List.append_assoc]

/-- What a run has told before it says that it is complete. -/
def log (m : Matrix) : List Event := m.run.events.dropLast

/-- A run tells about its scenarios one after another, and then that it is complete. -/
theorem events_run (m : Matrix) :
    m.run.events =
      traceAfter none m.scenarios ++ [.matrixComplete m.run.value.passed m.run.value.total] := by
  rw [← events_runFrom none {} m.scenarios]
  unfold run
  simp only [Logged.events_bind, Logged.value_bind, Logged.events_tell, Logged.events_pure,
    Logged.value_pure, List.append_nil]

theorem log_eq (m : Matrix) : m.log = traceAfter none m.scenarios := by
  rw [log, events_run, List.dropLast_concat]

/-- The warnings are the failures, in order, by induction on the scenarios. -/
theorem warnings_traceAfter (previous : Option String) (scenarios : List Scenario) :
    List.Forall₂ Event.WarnsOf ((traceAfter previous scenarios).filter Event.isWarning)
      (scenarios.filterMap Scenario.failure?) := by
  induction scenarios generalizing previous with
  | nil => exact .nil
  | cons s rest ih =>
    have hfailures : (s :: rest).filterMap Scenario.failure? =
        s.failure?.toList ++ rest.filterMap Scenario.failure? := by
      rw [List.filterMap_cons]
      cases s.failure? <;> rfl
    rw [traceAfter_cons, List.filter_append, hfailures]
    exact List.rel_append (s.warnings_trace previous) (ih _)

/-- The warnings of a run are the failures of its report, one for one. -/
theorem warnings_run (m : Matrix) :
    List.Forall₂ Event.WarnsOf (m.run.events.filter Event.isWarning) m.run.value.failures := by
  have hlast : [Event.matrixComplete m.run.value.passed m.run.value.total].filter
      Event.isWarning = [] := rfl
  rw [events_run, List.filter_append, hlast, List.append_nil, m.accounts_run.failures]
  exact warnings_traceAfter none m.scenarios

/-- Each scenario is told with the group of the one before it. -/
theorem map_line_traceAfter (previous : Option String) (scenarios : List Scenario) :
    (traceAfter previous scenarios).map Event.line =
      (List.zipWith Scenario.lines (previous :: scenarios.map fun s => some s.group)
        scenarios).flatten := by
  have htrace : (fun previous s => (Scenario.trace previous s).map Event.line) =
      Scenario.lines := funext₂ Scenario.map_line_trace
  rw [traceAfter, List.map_flatten, List.map_zipWith, htrace]

/-! ## Cutting a matrix in two -/

/-- The group of the first scenario. -/
def firstGroup (m : Matrix) : Option String := m.scenarios.head?.map Scenario.group

/-- The group of the last scenario. -/
def lastGroup (m : Matrix) : Option String := m.scenarios.getLast?.map Scenario.group

/-- A trace is cut by carrying the last group across the cut. -/
theorem traceAfter_append (previous : Option String) (front back : List Scenario) :
    traceAfter previous (front ++ back) =
      traceAfter previous front ++
        traceAfter ((front.getLast?.map Scenario.group).or previous) back := by
  induction front generalizing previous with
  | nil => rfl
  | cons s rest ih =>
    have hlast : ((s :: rest).getLast?.map Scenario.group).or previous =
        (rest.getLast?.map Scenario.group).or (some s.group) := by
      rw [List.getLast?_cons]
      cases rest.getLast? <;> rfl
    rw [List.cons_append, traceAfter_cons, traceAfter_cons, ih, hlast, List.append_assoc]

/-- The announcement in front of a log. -/
def opening (m : Matrix) : List Event := (m.firstGroup.map Event.groupStarted).toList

/-- A log is its announcement and a rest, and the rest is what is told after the same group. -/
theorem exists_log_eq_opening (m : Matrix) :
    ∃ rest, m.log = m.opening ++ rest ∧
      ∀ previous, traceAfter previous m.scenarios =
        if m.scenarios ≠ [] ∧ m.firstGroup = previous then rest else m.log := by
  obtain ⟨scenarios⟩ := m
  cases scenarios with
  | nil =>
    refine ⟨[], rfl, ?_⟩
    intro previous
    rw [if_neg (fun h => h.1 rfl)]
    rfl
  | cons s later =>
    refine ⟨s.traceResult ++ [s.traceVerdict] ++ traceAfter (some s.group) later, ?_, ?_⟩
    · rw [log_eq, traceAfter_cons]
      rfl
    · intro previous
      -- Behind its own group the announcement is left out, and the rest is the same either way.
      by_cases hprevious : previous = some s.group
      · rw [if_pos ⟨List.cons_ne_nil _ _, hprevious.symm⟩, traceAfter_cons, Scenario.trace,
          if_pos hprevious]
        rfl
      · rw [if_neg (fun h => hprevious h.2.symm), log_eq, traceAfter_cons, traceAfter_cons,
          Scenario.trace, if_neg hprevious]
        rfl

/-- The log of two matrices in one is that of the first and, behind it, what the second tells after
the last group of the first. -/
theorem log_append (a b : Matrix) : (a ++ b).log = a.log ++ traceAfter a.lastGroup b.scenarios := by
  have htrace := traceAfter_append none a.scenarios b.scenarios
  rw [Option.or_none] at htrace
  rw [log_eq, log_eq]
  exact htrace

/-- **The log of a run is an exact trace.** It goes scenario by scenario and ends with the counts of
the report; its warnings are the failures of the report; and what is told about a second half is
what it tells on its own, but for the announcement of a group that has already begun. -/
theorem log_exact_trace :
    (∀ m : Matrix,
      m.run.events = m.log ++ [.matrixComplete m.run.value.passed m.run.value.total] ∧
      m.log = (List.zipWith Scenario.trace (none :: m.scenarios.map fun s => some s.group)
        m.scenarios).flatten ∧
      m.run.events.map Event.line =
        (List.zipWith Scenario.lines (none :: m.scenarios.map fun s => some s.group)
          m.scenarios).flatten ++
        [⟨.info, "matrix complete",
          [("passed", Numeral.decimalText m.run.value.passed),
            ("total", Numeral.decimalText m.run.value.total)]⟩] ∧
      List.Forall₂ Event.WarnsOf (m.run.events.filter Event.isWarning) m.run.value.failures) ∧
    ∀ a b : Matrix, ∃ rest, b.log = b.opening ++ rest ∧
      (a ++ b).log = a.log ++
        if a.scenarios ≠ [] ∧ b.scenarios ≠ [] ∧ b.firstGroup = a.lastGroup then rest
        else b.log := by
  constructor
  · intro m
    refine ⟨?_, m.log_eq, ?_, m.warnings_run⟩
    · rw [log_eq, events_run]
    · rw [events_run, List.map_append, map_line_traceAfter]
      rfl
  · intro a b
    obtain ⟨rest, hopening, hafter⟩ := b.exists_log_eq_opening
    refine ⟨rest, hopening, ?_⟩
    -- A matrix without scenarios has no last group, so no group can go on after it.
    have hlast : b.scenarios ≠ [] ∧ b.firstGroup = a.lastGroup →
        a.scenarios ≠ [] ∧ b.scenarios ≠ [] ∧ b.firstGroup = a.lastGroup := by
      rintro ⟨hb, hgroup⟩
      refine ⟨?_, hb, hgroup⟩
      intro ha
      rw [lastGroup, ha, firstGroup, ← List.cons_head_tail hb] at hgroup
      cases hgroup
    rw [log_append, hafter]
    exact congrArg (a.log ++ ·) (if_congr ⟨hlast, And.right⟩ rfl rfl)

end Matrix

end FixedWidth
