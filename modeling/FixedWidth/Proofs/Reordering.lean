import FixedWidth.Proofs.Accounting
import FixedWidth.Proofs.Rendering

/-!
# Reports of scenarios in another order

Every scenario adds a report of its own, and merging reports commutes but for the order of their
failures. So neither the order of the scenarios nor that of the files shows anywhere else.

- `Tallies.merge_comm`: tallies commute outright, because their order is that of the groups' names
  and not that in which they came;
- `Report.SameButOrder`: what two merged reports have in common whichever comes first; merging
  keeps it (`SameButOrder.merge`), hence so does a whole row of merges (`sameButOrder_mergeAll`);
- `Report.text_eq`: the text of a report is that of its groups, then that of its failures, then the
  total, and only the second of them is written in the order of the run;
- `Report.groupLine_injective`, `Report.failureLine_eq_iff_reason`, `Report.totalLine_eq_iff`: what
  each of its lines tells. A line here is what is written in one piece and ended once. The name of a
  group or of a scenario may hold a line break, and then its line spans several of the text.

> `report_order_independent`: what does not depend on the order, in a report and in its text.
-/

namespace FixedWidth

/-! ## Merging commutes -/

theorem Tally.add_comm (a b : Tally) : a + b = b + a :=
  congrArg₂ Tally.mk (Nat.add_comm ..) (Nat.add_comm ..)

/-- Tallies may be merged in either order, as each group has its own sum and its own place. -/
theorem Tallies.merge_comm (x y : Tallies) : x.merge y = y.merge x := by
  refine ext_get? ?_
  intro group
  rw [get?_merge, get?_merge]
  cases x.get? group <;> cases y.get? group <;> try rfl
  exact congrArg some (Tally.add_comm ..)

namespace Report

/-- Whether two reports differ in nothing but the order of their failures. -/
structure SameButOrder (x y : Report) : Prop where
  passed : x.passed = y.passed
  failures : x.failures.Perm y.failures
  groups : x.groups = y.groups

namespace SameButOrder

variable {x y z : Report}

theorem refl (x : Report) : SameButOrder x x := ⟨rfl, .refl _, rfl⟩

theorem trans (hxy : SameButOrder x y) (hyz : SameButOrder y z) : SameButOrder x z :=
  ⟨hxy.passed.trans hyz.passed, hxy.failures.trans hyz.failures, hxy.groups.trans hyz.groups⟩

/-- A report that is merged into both keeps them the same but for the order. -/
theorem merge (h : SameButOrder x y) (z : Report) : SameButOrder (x.merge z) (y.merge z) where
  passed := congrArg (· + z.passed) h.passed
  failures := h.failures.append_right z.failures
  groups := congrArg (·.merge z.groups) h.groups

/-- The order of failures does not change their number. -/
theorem total (h : SameButOrder x y) : x.total = y.total := by
  unfold Report.total
  rw [h.passed, h.failures.length_eq]

theorem isSuccess (h : SameButOrder x y) : x.isSuccess = y.isSuccess := h.failures.isEmpty_eq

theorem totalLine (h : SameButOrder x y) : x.totalLine = y.totalLine := by
  unfold Report.totalLine
  rw [h.passed, h.total]

end SameButOrder

/-- Two reports may be merged into a third in either order. -/
theorem sameButOrder_merge_comm (report x y : Report) :
    SameButOrder ((report.merge x).merge y) ((report.merge y).merge x) where
  passed := Nat.add_right_comm ..
  failures := by
    show (report.failures ++ x.failures ++ y.failures).Perm
      (report.failures ++ y.failures ++ x.failures)
    rw [List.append_assoc, List.append_assoc]
    exact List.perm_append_comm.append_left report.failures
  groups := by
    show (report.groups.merge x.groups).merge y.groups =
      (report.groups.merge y.groups).merge x.groups
    rw [Tallies.merge_assoc, Tallies.merge_comm x.groups, ← Tallies.merge_assoc]

/-- Reports merged into one, first to last. -/
def mergeAll (report : Report) (reports : List Report) : Report := reports.foldl merge report

/-- A row of merges keeps two reports the same but for the order, by induction on the row. -/
theorem SameButOrder.mergeAll {x y : Report} (h : SameButOrder x y) (reports : List Report) :
    SameButOrder (x.mergeAll reports) (y.mergeAll reports) := by
  induction reports generalizing x y with
  | nil => exact h
  | cons next rest ih => exact ih (h.merge next)

/-- Reports may be merged in any order. The induction is on the permutation, and its one real case
is that of two neighbours. -/
theorem sameButOrder_mergeAll {reports reports' : List Report} (h : reports.Perm reports')
    (report : Report) : SameButOrder (report.mergeAll reports) (report.mergeAll reports') := by
  induction h generalizing report with
  | nil => exact .refl report
  | cons next _ ih => exact ih (report.merge next)
  | swap x y rest => exact (sameButOrder_merge_comm report y x).mergeAll rest
  | trans _ _ ih ih' => exact (ih report).trans (ih' report)

end Report

/-! ## Runs in another order -/

namespace Matrix

/-- A run merges what its scenarios come to one by one. -/
theorem value_run_eq_mergeAll (m : Matrix) :
    m.run.value = Report.mergeAll {} (m.scenarios.map fun s => Report.record {} s s.verdict) := by
  rw [value_run, Report.mergeAll, List.foldl_map]
  simp only [← Report.record_eq_merge]

/-- A run of several matrices merges their reports one by one. -/
theorem mergeRuns_eq_mergeAll (ms : List Matrix) :
    mergeRuns {} ms = Report.mergeAll {} (ms.map fun m => m.run.value) := by
  rw [mergeRuns, Report.mergeAll, List.foldl_map]

/-- Whether two reports come from the same scenarios of a matrix, or from the same matrices, in one
order and in another. -/
inductive Reordered : Report → Report → Prop where
  | scenarios {xs ys : List Scenario} (h : xs.Perm ys) :
    Reordered (mk xs).run.value (mk ys).run.value
  | matrices {ms ns : List Matrix} (h : ms.Perm ns) :
    Reordered (mergeRuns {} ms) (mergeRuns {} ns)

/-- Either way of reordering is a row of merges in another order. -/
theorem Reordered.sameButOrder {x y : Report} (h : Reordered x y) : x.SameButOrder y := by
  cases h with
  | scenarios h =>
    rw [value_run_eq_mergeAll, value_run_eq_mergeAll]
    exact Report.sameButOrder_mergeAll (h.map _) {}
  | matrices h =>
    rw [mergeRuns_eq_mergeAll, mergeRuns_eq_mergeAll]
    exact Report.sameButOrder_mergeAll (h.map _) {}

end Matrix

/-! ## The text of a report -/

/-- Lines in front of a last one, each with its line break. -/
theorem Text.intercalate_concat (lines : List String) (last : String) :
    "\n".intercalate (lines ++ [last]) = String.join (lines.map (· ++ "\n")) ++ last := by
  induction lines with
  | nil => rw [List.nil_append, String.intercalate_singleton]; rfl
  | cons line rest ih =>
    have hrest : rest ++ [last] ≠ [] := List.append_ne_nil_of_right_ne_nil _ (List.cons_ne_nil _ _)
    rw [List.cons_append, List.map_cons, String.join_cons, String.append_assoc, ← ih]
    cases hlater : rest ++ [last] with
    | nil => exact absurd hlater hrest
    | cons next later => rw [String.intercalate_cons_cons]

namespace Report

/-- The lines about the groups, each with its line break. One is written for each group, in one
piece, whatever the name of the group holds. -/
def groupText (report : Report) : String :=
  String.join (report.groups.entries.map fun entry => groupLine entry ++ "\n")

/-- The lines about the failures, each with its line break. -/
def failureText (report : Report) : String :=
  String.join (report.failures.map fun failure => failureLine failure ++ "\n")

/-- The three parts of the text, of which only that about the failures has an order of its own. -/
theorem text_eq (report : Report) :
    report.text = report.groupText ++ report.failureText ++ report.totalLine := by
  unfold text lines groupText failureText
  rw [Text.intercalate_concat, List.map_append, List.map_map, List.map_map, String.join_append]
  rfl

/-! ## What the lines tell -/

/-- The line about a group, cut at the blanks in front of its counts. -/
theorem toList_groupLine (entry : GroupTally) :
    (groupLine entry).toList =
      ((entry.group.toList ++ [':']) ++ ' ' :: Numeral.decimal entry.tally.passed ++
        " okay,".toList) ++ ' ' :: Numeral.decimal entry.tally.failed ++ " NOT okay".toList := by
  unfold groupLine Numeral.decimalText
  simp

/-- The line about a group tells the group, whatever its name, and both of its counts. -/
theorem groupLine_injective {a b : GroupTally} (h : groupLine a = groupLine b) : a = b := by
  have hblank : ∀ n, ' ' ∉ Numeral.decimal n := Numeral.not_mem_decimal (by decide)
  rw [← String.toList_inj, toList_groupLine, toList_groupLine] at h
  -- The name may hold anything, so the line is cut from its end.
  obtain ⟨hfront, hfailed⟩ :=
    Text.append_cons_inj_last (hblank _) (hblank _) (List.append_cancel_right h)
  obtain ⟨hname, hpassed⟩ :=
    Text.append_cons_inj_last (hblank _) (hblank _) (List.append_cancel_right hfront)
  obtain ⟨name, passed, failed⟩ := a
  obtain ⟨name', passed', failed'⟩ := b
  obtain rfl : name = name' := String.toList_inj.mp (List.append_cancel_right hname)
  obtain rfl : passed = passed' := Numeral.decimal_injective hpassed
  obtain rfl : failed = failed' := Numeral.decimal_injective hfailed
  rfl

/-- Under one name, the line about a failure tells its reason and nothing else. -/
theorem failureLine_eq_iff_reason {a b : Failure} (h : a.name = b.name) :
    failureLine a = failureLine b ↔ a.reason = b.reason := by
  unfold failureLine
  rw [h, String.append_right_inj]

/-- For one reason, the line about a failure tells its name and nothing else. -/
theorem failureLine_eq_iff_name {a b : Failure} (h : a.reason = b.reason) :
    failureLine a = failureLine b ↔ a.name = b.name := by
  unfold failureLine
  rw [h, String.append_left_inj, String.append_left_inj, String.append_right_inj]

theorem toList_totalLine (report : Report) :
    report.totalLine.toList = Numeral.decimal report.passed ++
      '/' :: (Numeral.decimal report.total ++ " scenarios okay".toList) := by
  unfold totalLine Numeral.decimalText
  simp

/-- The last line tells how many scenarios passed and how many there were. -/
theorem totalLine_eq_iff {x y : Report} :
    x.totalLine = y.totalLine ↔ x.passed = y.passed ∧ x.total = y.total := by
  have hslash : ∀ n, '/' ∉ Numeral.decimal n := Numeral.not_mem_decimal (by decide)
  constructor
  · intro h
    rw [← String.toList_inj, toList_totalLine, toList_totalLine] at h
    obtain ⟨hpassed, htotal⟩ := Text.append_cons_inj (hslash _) (hslash _) h
    exact ⟨Numeral.decimal_injective hpassed,
      Numeral.decimal_injective (List.append_cancel_right htotal)⟩
  · intro h
    unfold totalLine
    rw [h.1, h.2]

end Report

namespace Matrix

/-- **A report does not depend on the order of the run**, but for the order of its failures. In its
text every group has one line, the lines come in the strict order of the bytes of the groups' names,
and only the lines about failures, between those and the total, follow the order of the run.

The line about a group tells the group and its two counts; that about a failure, its name and its
reason; the last one, the two totals. -/
theorem report_order_independent :
    (∀ x y, Reordered x y →
      x.passed = y.passed ∧ x.total = y.total ∧ x.isSuccess = y.isSuccess ∧ x.groups = y.groups ∧
      x.failures.Perm y.failures ∧ x.groupText = y.groupText ∧ x.totalLine = y.totalLine) ∧
    (∀ report : Report,
      report.text = report.groupText ++ report.failureText ++ report.totalLine ∧
      report.groups.entries.Pairwise (fun a b => Text.bytes a.group < Text.bytes b.group) ∧
      (report.groups.entries.map GroupTally.group).Nodup ∧
      ∀ group tally, report.groups.get? group = some tally ↔
        ⟨group, tally⟩ ∈ report.groups.entries) ∧
    (∀ a b, Report.groupLine a = Report.groupLine b ↔ a = b) ∧
    (∀ a b : Failure, a.name = b.name →
      (Report.failureLine a = Report.failureLine b ↔ a.reason = b.reason)) ∧
    (∀ a b : Failure, a.reason = b.reason →
      (Report.failureLine a = Report.failureLine b ↔ a.name = b.name)) ∧
    ∀ x y : Report, x.totalLine = y.totalLine ↔ x.passed = y.passed ∧ x.total = y.total := by
  refine ⟨?_, ?_, ?_, ?_, ?_, ?_⟩
  · intro x y h
    have hsame := h.sameButOrder
    refine ⟨hsame.passed, hsame.total, hsame.isSuccess, hsame.groups, hsame.failures, ?_,
      hsame.totalLine⟩
    unfold Report.groupText
    rw [hsame.groups]
  · intro report
    refine ⟨report.text_eq, report.groups.sorted, report.groups.nodup_groups, ?_⟩
    intro group tally
    exact (report.groups.mem_entries_iff group tally).symm
  · intro a b
    exact ⟨Report.groupLine_injective, congrArg Report.groupLine⟩
  · intro a b hname
    exact Report.failureLine_eq_iff_reason hname
  · intro a b hreason
    exact Report.failureLine_eq_iff_name hreason
  · intro x y
    exact Report.totalLine_eq_iff

/-- Failures of two groups that swap places, and two failures that share a name or a reason. -/
theorem report_order_independent_swapped :
    let front := Matrix.mk (alternating.scenarios.take 2)
    let back := Matrix.mk (alternating.scenarios.drop 2)
    Reordered (mergeRuns {} [front, back]) (mergeRuns {} [back, front]) ∧
      (mergeRuns {} [front, back]).failures ≠ (mergeRuns {} [back, front]).failures ∧
      (mergeRuns {} [front, back]).groupText = (mergeRuns {} [back, front]).groupText ∧
      (Report.failureLine ⟨"x", "g", "r"⟩ = Report.failureLine ⟨"x", "h", "s"⟩ ↔ "r" = "s") ∧
      (Report.failureLine ⟨"x", "g", "r"⟩ = Report.failureLine ⟨"y", "g", "r"⟩ ↔ "x" = "y") := by
  intro front back
  have h : Reordered (mergeRuns {} [front, back]) (mergeRuns {} [back, front]) :=
    .matrices (List.Perm.swap back front [])
  obtain ⟨hsame, -, -, hreason, hname, -⟩ := report_order_independent
  exact ⟨h, by decide, (hsame _ _ h).2.2.2.2.2.1, hreason _ _ rfl, hname _ _ rfl⟩

end Matrix

end FixedWidth
