import FixedWidth.Proofs.Merging

/-!
# What a report accounts for

A run keeps three summaries side by side: a count of what passed, the list of failures, and a tally
for every group. `Accounts` ties all three to the scenarios that have been run so far.

- `Accounts.record`: the verdict on one more scenario keeps them tied together, because it goes to
  one place of each summary, and to the tally of the scenario's own group;
- `accounts_run`: so they are after a whole run, whatever the groups and however they alternate.

> `run_report_exact`: the failures are those of the scenarios in their order, and every count is a
> count of scenarios; nothing is missed and nothing is counted twice.
-/

namespace FixedWidth

/-- What a verdict adds to the tally of a group. -/
def Verdict.tally : Verdict → Tally
  | .passed => ⟨1, 0⟩
  | .failed _ => ⟨0, 1⟩

namespace Scenario

/-- Whether the scenario, when run, comes out as expected. -/
def passes (s : Scenario) : Bool := s.run.value.isPassed

/-- What is reported about the scenario if it does not. -/
def failure? (s : Scenario) : Option Failure :=
  match s.run.value with
  | .passed => none
  | .failed reason => some ⟨s.name, s.group, reason⟩

/-- The tally that scenarios give a group: how many of those in it pass, and how many do not. -/
def tallyOf (group : String) (scenarios : List Scenario) : Tally where
  passed := scenarios.countP fun s => s.group = group && s.passes
  failed := scenarios.countP fun s => s.group = group && !s.passes

theorem isSome_failure? (s : Scenario) : s.failure?.isSome = !s.passes := by
  unfold failure? passes
  cases s.run.value <;> rfl

/-- One more scenario counts in its own group and in no other. -/
theorem tallyOf_concat (group : String) (scenarios : List Scenario) (s : Scenario) :
    tallyOf group (scenarios ++ [s]) =
      if group = s.group then tallyOf group scenarios + s.run.value.tally
      else tallyOf group scenarios := by
  unfold tallyOf passes
  rw [List.countP_append, List.countP_append, List.countP_singleton, List.countP_singleton]
  by_cases hg : group = s.group
  · rw [if_pos hg, decide_eq_true hg.symm]
    cases s.run.value <;> rfl
  · rw [if_neg hg, decide_eq_false (Ne.symm hg)]
    rfl

/-- Every scenario passes or has a failure, and not both. -/
theorem countP_passes_add_length (scenarios : List Scenario) :
    scenarios.countP passes + (scenarios.filterMap failure?).length = scenarios.length := by
  have hsome : (fun s => (failure? s).isSome) = fun s : Scenario => decide ¬s.passes = true := by
    funext s
    rw [isSome_failure?]
    cases s.passes <;> rfl
  rw [List.length_filterMap_eq_countP, hsome, ← List.length_eq_countP_add_countP]

/-- The failures of a group are those of its scenarios. -/
theorem countP_failures (group : String) (scenarios : List Scenario) :
    (scenarios.filterMap failure?).countP (·.group = group) = (tallyOf group scenarios).failed := by
  rw [List.countP_filterMap]
  refine congrArg (List.countP · scenarios) ?_
  funext s
  unfold failure? passes
  cases s.run.value
  · exact (Bool.and_false _).symm
  · exact (Bool.and_true _).symm

end Scenario

/-! ## Tallies as a map -/

namespace Tallies

/-- The entries are the map that look-up sees. -/
theorem mem_entries_iff (tallies : Tallies) (group : String) (tally : Tally) :
    ⟨group, tally⟩ ∈ tallies.entries ↔ tallies.get? group = some tally := by
  obtain ⟨entries, hsorted⟩ := tallies
  show _ ↔ find? group entries = some tally
  induction entries with
  | nil => simp [find?]
  | cons entry rest ih =>
    obtain ⟨hfirst, hrest⟩ := List.pairwise_cons.mp hsorted
    rw [List.mem_cons, find?_cons]
    by_cases hg : entry.group = group
    · -- The rest comes strictly later, so the group is not in it.
      have hnot : ⟨group, tally⟩ ∉ rest := by
        intro hmem
        have hlt := hfirst _ hmem
        rw [hg] at hlt
        exact Text.before_irrefl group hlt
      rw [if_pos hg, or_iff_left hnot, Option.some.injEq]
      exact ⟨fun h => h ▸ rfl, fun h => hg ▸ h ▸ rfl⟩
    · have hne : ⟨group, tally⟩ ≠ entry := fun h => hg (h ▸ rfl)
      rw [if_neg hg, or_iff_right hne, ih hrest]

/-- No group has two entries, since the names go up strictly. -/
theorem nodup_groups (tallies : Tallies) : (tallies.entries.map GroupTally.group).Nodup := by
  refine List.pairwise_map.mpr (tallies.sorted.imp ?_)
  intro a b hlt heq
  exact Text.before_irrefl b.group (heq ▸ hlt)

/-- What the tallies of all groups come to, by a count that adds up. -/
def sumOf (count : Tally → Nat) (tallies : Tallies) : Nat :=
  (tallies.entries.map fun entry => count entry.tally).sum

/-- A tally that is added to some group adds its count to the sum over all of them, whether or not
the group is new. -/
theorem sumOf_add {count : Tally → Nat} (hcount : ∀ a b, count (a + b) = count a + count b)
    (tallies : Tallies) (group : String) (tally : Tally) :
    sumOf count (tallies.add group tally) = sumOf count tallies + count tally := by
  obtain ⟨entries, hsorted⟩ := tallies
  show ((addEntry group tally entries).map _).sum = (entries.map _).sum + _
  clear hsorted
  induction entries with
  | nil => exact Nat.add_comm ..
  | cons entry rest ih =>
    unfold addEntry
    split
    · exact Nat.add_comm ..
    · split
      · rw [List.map_cons, List.map_cons, List.sum_cons, List.sum_cons, hcount]
        exact Nat.add_right_comm ..
      · rw [List.map_cons, List.map_cons, List.sum_cons, List.sum_cons, ih, Nat.add_assoc]

end Tallies

/-! ## The invariant of a run -/

namespace Report

/-- Whether a report tells exactly what came out of some scenarios. -/
structure Accounts (report : Report) (scenarios : List Scenario) : Prop where
  passed : report.passed = scenarios.countP Scenario.passes
  failures : report.failures = scenarios.filterMap Scenario.failure?
  /-- A group has a tally as soon as a scenario is in it. -/
  known : ∀ group, (report.groups.get? group).isSome ↔ ∃ s ∈ scenarios, s.group = group
  tallies : ∀ group, (report.groups.get? group).getD {} = Scenario.tallyOf group scenarios
  sumPassed : report.groups.sumOf Tally.passed = report.passed
  sumFailed : report.groups.sumOf Tally.failed = report.failures.length

/-- A verdict goes to the tally of its own group. -/
theorem groups_record (report : Report) (s : Scenario) (verdict : Verdict) :
    (report.record s verdict).groups = report.groups.add s.group verdict.tally := by
  cases verdict <;> rfl

theorem passed_record (report : Report) (s : Scenario) (verdict : Verdict) :
    (report.record s verdict).passed = report.passed + verdict.tally.passed := by
  cases verdict <;> rfl

theorem length_failures_record (report : Report) (s : Scenario) (verdict : Verdict) :
    (report.record s verdict).failures.length =
      report.failures.length + verdict.tally.failed := by
  cases verdict with
  | passed => rfl
  | failed reason => exact List.length_append

theorem accounts_nil : Accounts {} [] where
  passed := rfl
  failures := rfl
  known := by
    intro group
    constructor
    · intro h
      cases h
    · rintro ⟨s, hs, -⟩
      cases hs
  tallies _ := rfl
  sumPassed := rfl
  sumFailed := rfl

/-- One step of a run: the verdict on a scenario is entered everywhere it belongs. -/
theorem Accounts.record {report : Report} {scenarios : List Scenario}
    (h : report.Accounts scenarios) (s : Scenario) :
    (report.record s s.run.value).Accounts (scenarios ++ [s]) where
  passed := by
    rw [passed_record, h.passed, List.countP_append, List.countP_singleton]
    unfold Scenario.passes
    cases s.run.value <;> rfl
  failures := by
    rw [List.filterMap_append, ← h.failures, List.filterMap_cons, List.filterMap_nil]
    unfold Scenario.failure?
    cases s.run.value with
    | passed => exact (List.append_nil _).symm
    | failed reason => rfl
  known := by
    intro group
    rw [groups_record, Tallies.get?_add]
    -- The group of this scenario is known now; any other one comes from an earlier scenario.
    by_cases hg : group = s.group
    · rw [if_pos hg]
      exact ⟨fun _ => ⟨s, List.mem_append_right _ (List.mem_singleton_self s), hg.symm⟩,
        fun _ => rfl⟩
    · rw [if_neg hg, h.known group]
      constructor
      · rintro ⟨x, hx, hgroup⟩
        exact ⟨x, List.mem_append_left _ hx, hgroup⟩
      · rintro ⟨x, hx, hgroup⟩
        rcases List.mem_append.mp hx with hx | hx
        · exact ⟨x, hx, hgroup⟩
        · rw [List.mem_singleton.mp hx] at hgroup
          exact absurd hgroup.symm hg
  tallies := by
    intro group
    rw [groups_record, Tallies.get?_add, Scenario.tallyOf_concat]
    by_cases hg : group = s.group
    · rw [if_pos hg, if_pos hg, Option.getD_some, ← hg, h.tallies group]
    · rw [if_neg hg, if_neg hg, h.tallies group]
  sumPassed := by
    rw [groups_record, Tallies.sumOf_add Tally.passed_add, h.sumPassed, passed_record]
  sumFailed := by
    rw [groups_record, Tallies.sumOf_add Tally.failed_add, h.sumFailed, length_failures_record]

/-- The run: by induction on the scenarios still to come, one step at a time. -/
theorem Accounts.foldl {report : Report} {done : List Scenario} (h : report.Accounts done)
    (rest : List Scenario) :
    (rest.foldl (fun report s => report.record s s.verdict) report).Accounts (done ++ rest) := by
  induction rest generalizing report done with
  | nil => exact (List.append_nil done).symm ▸ h
  | cons s rest ih =>
    have hstep := ih (h.record s)
    rw [List.append_assoc] at hstep
    rw [List.foldl_cons, ← s.value_run]
    exact hstep

/-- No scenario is counted twice or left out. -/
theorem Accounts.total {report : Report} {scenarios : List Scenario}
    (h : report.Accounts scenarios) : report.total = scenarios.length := by
  unfold Report.total
  rw [h.passed, h.failures, Scenario.countP_passes_add_length]

/-- The tally of an entry is the one that the scenarios of its group come to. -/
theorem Accounts.tally_eq {report : Report} {scenarios : List Scenario}
    (h : report.Accounts scenarios) {entry : GroupTally} (hentry : entry ∈ report.groups.entries) :
    entry.tally = Scenario.tallyOf entry.group scenarios := by
  have hget := (Tallies.mem_entries_iff _ entry.group entry.tally).mp hentry
  rw [← h.tallies, hget, Option.getD_some]

/-- A group has an entry exactly if some scenario is in it. -/
theorem Accounts.mem_groups {report : Report} {scenarios : List Scenario}
    (h : report.Accounts scenarios) (group : String) :
    group ∈ report.groups.entries.map GroupTally.group ↔ ∃ s ∈ scenarios, s.group = group := by
  rw [← h.known group, Option.isSome_iff_exists, List.mem_map]
  constructor
  · rintro ⟨entry, hentry, rfl⟩
    exact ⟨entry.tally, (Tallies.mem_entries_iff ..).mp hentry⟩
  · rintro ⟨tally, htally⟩
    exact ⟨⟨group, tally⟩, (Tallies.mem_entries_iff ..).mpr htally, rfl⟩

end Report

namespace Matrix

/-- A run accounts for all scenarios of its matrix. -/
theorem accounts_run (m : Matrix) : m.run.value.Accounts m.scenarios := by
  rw [value_run]
  exact Report.accounts_nil.foldl m.scenarios

/-- **A report tells what came out of its scenarios, and nothing else.** -/
theorem run_report_exact (m : Matrix) :
    m.run.value.failures = m.scenarios.filterMap Scenario.failure? ∧
    m.run.value.passed = m.scenarios.countP Scenario.passes ∧
    m.run.value.total = m.scenarios.length ∧
    (m.run.value.groups.entries.map GroupTally.group).Nodup ∧
    (∀ group, group ∈ m.run.value.groups.entries.map GroupTally.group ↔
      ∃ s ∈ m.scenarios, s.group = group) ∧
    (∀ entry ∈ m.run.value.groups.entries,
      entry.tally.passed = m.scenarios.countP (fun s => s.group = entry.group && s.passes) ∧
      entry.tally.failed = m.scenarios.countP (fun s => s.group = entry.group && !s.passes) ∧
      entry.tally.failed = m.run.value.failures.countP (·.group = entry.group)) ∧
    (m.run.value.groups.entries.map (·.tally.passed)).sum = m.run.value.passed ∧
    (m.run.value.groups.entries.map (·.tally.failed)).sum = m.run.value.failures.length := by
  have h := m.accounts_run
  refine ⟨h.failures, h.passed, h.total, m.run.value.groups.nodup_groups, h.mem_groups, ?_,
    h.sumPassed, h.sumFailed⟩
  intro entry hentry
  have htally := h.tally_eq hentry
  refine ⟨congrArg Tally.passed htally, congrArg Tally.failed htally, ?_⟩
  rw [h.failures, Scenario.countP_failures, ← htally]

/-- Two groups that alternate, and a name that comes twice in one of them. -/
def alternating : Matrix where
  scenarios :=
    [⟨"flip", "b", .not, [⟨.u32, 1⟩], none, .value ⟨.u32, 0xfffffffe⟩⟩,
      ⟨"minus", "a", .neg, [⟨.u64, 1⟩], none, .value ⟨.i64, 1⟩⟩,
      ⟨"flip", "b", .not, [⟨.u32, 1⟩], some .i32, .value ⟨.i32, 0⟩⟩,
      ⟨"half", "a", .div, [⟨.u32, 1⟩, ⟨.u32, 0⟩], none, .error .divisionByZero⟩]

theorem run_report_exact_alternating :
    (⟨"b", ⟨1, 1⟩⟩ : GroupTally) ∈ alternating.run.value.groups.entries ∧
      alternating.run.value.failures.countP (·.group = "b") = 1 := by
  have hmem : (⟨"b", ⟨1, 1⟩⟩ : GroupTally) ∈ alternating.run.value.groups.entries := by decide
  exact ⟨hmem, ((run_report_exact alternating).2.2.2.2.2.1 _ hmem).2.2.symm⟩

end Matrix

end FixedWidth
