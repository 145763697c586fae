import FixedWidth.Command.Perform
import FixedWidth.Proofs.RoundTrip

/-!
# Runs in pieces

Reports are a monoid under `merge`, whatever they hold, and running takes matrices that follow one
another to the merge of their reports. A report keeps a count, a list and tallies side by side; the
first two are sums and concatenations, so what there is to show is about the tallies:

- `Tallies.ext_get?`: entries in strict order are told by what is found among them, so two tallies
  are equal as soon as they give every group the same;
- `Tallies.get?_merge`: merging adds up group by group, and a group that only one side knows is
  taken over.

> `run_append_merge`: one run over all scenarios is the merge of runs over pieces, wherever the
> cuts are, and so is the report that a command puts together file by file.
-/

namespace FixedWidth

/-! ## Tallies of groups -/

namespace Tally

theorem zero_add (a : Tally) : ({} : Tally) + a = a :=
  congrArg₂ Tally.mk (Nat.zero_add a.passed) (Nat.zero_add a.failed)

theorem add_assoc (a b c : Tally) : a + b + c = a + (b + c) :=
  congrArg₂ Tally.mk (Nat.add_assoc ..) (Nat.add_assoc ..)

end Tally

namespace Tallies

theorem find?_cons (group : String) (entry : GroupTally) (rest : List GroupTally) :
    find? group (entry :: rest) =
      if entry.group = group then some entry.tally else find? group rest := by
  by_cases h : entry.group = group <;> simp [find?, h]

theorem find?_self (entry : GroupTally) (rest : List GroupTally) :
    find? entry.group (entry :: rest) = some entry.tally := by
  rw [find?_cons, if_pos rfl]

/-- A group that comes before the first one of a list is not found in it. -/
theorem find?_eq_none_of_before_first {group : String} {entry : GroupTally}
    {rest : List GroupTally}
    (h : (entry :: rest).Pairwise (fun x y => Text.before x.group y.group))
    (hlt : Text.before group entry.group) : find? group (entry :: rest) = none := by
  refine find?_eq_none_of_before ?_
  intro e he
  rcases List.mem_cons.mp he with rfl | he
  · exact hlt
  · exact Text.before_trans hlt ((List.pairwise_cons.mp h).1 e he)

/-- Entries in strict order are told by what is found among them. -/
theorem eq_of_find?_eq {a b : List GroupTally}
    (ha : a.Pairwise (fun x y => Text.before x.group y.group))
    (hb : b.Pairwise (fun x y => Text.before x.group y.group))
    (h : ∀ group, find? group a = find? group b) : a = b := by
  induction a generalizing b with
  | nil =>
    cases b with
    | nil => rfl
    | cons e rest =>
      have he := h e.group
      rw [find?_self] at he
      cases he
  | cons e rest ih =>
    have he := h e.group
    rw [find?_self] at he
    cases b with
    | nil => cases he
    | cons e' rest' =>
      have he' := h e'.group
      rw [find?_self] at he'
      -- If the first groups differ, the one that comes first is found on its own side only.
      have hgroup : e.group = e'.group := by
        by_contra hne
        by_cases hlt : Text.before e.group e'.group
        · rw [find?_eq_none_of_before_first hb hlt] at he
          cases he
        · rw [find?_eq_none_of_before_first ha (Text.before_of_not_before hlt hne)] at he'
          cases he'
      have htally : e.tally = e'.tally := by
        rw [hgroup, find?_self] at he
        exact Option.some.inj he
      obtain rfl : e = e' := by
        cases e
        cases e'
        exact (GroupTally.mk.injEq ..).mpr ⟨hgroup, htally⟩
      obtain ⟨hfirst, hrest⟩ := List.pairwise_cons.mp ha
      obtain ⟨hfirst', hrest'⟩ := List.pairwise_cons.mp hb
      have htail : ∀ group, find? group rest = find? group rest' := by
        intro group
        by_cases hg : e.group = group
        · rw [← hg, find?_eq_none_of_before hfirst, find?_eq_none_of_before hfirst']
        · have hcons := h group
          rw [find?_cons, find?_cons, if_neg hg, if_neg hg] at hcons
          exact hcons
      rw [ih hrest hrest' htail]

/-- Tallies are told by what they give each group. -/
theorem ext_get? {x y : Tallies} (h : ∀ group, x.get? group = y.get? group) : x = y := by
  have hentries := eq_of_find?_eq x.sorted y.sorted h
  cases x
  cases y
  exact (mk.injEq ..).mpr hentries

/-- Adding entries one by one adds, for each group, the tally that it has among them. The induction
is on the entries; strict order keeps their names apart. -/
theorem get?_foldl_add (group : String) {entries : List GroupTally}
    (h : entries.Pairwise (fun x y => Text.before x.group y.group)) (tallies : Tallies) :
    (entries.foldl (fun tallies entry => tallies.add entry.group entry.tally) tallies).get? group =
      Option.merge (· + ·) (tallies.get? group) (find? group entries) := by
  induction entries generalizing tallies with
  | nil => exact (Option.merge_none_right).symm
  | cons entry rest ih =>
    obtain ⟨hfirst, hrest⟩ := List.pairwise_cons.mp h
    rw [List.foldl_cons, ih hrest, get?_add, find?_cons]
    by_cases hg : group = entry.group
    · -- The group does not come again, so only this entry adds to it.
      rw [if_pos hg, if_pos hg.symm, hg, find?_eq_none_of_before hfirst]
      cases tallies.get? entry.group with
      | none => exact congrArg some (Tally.zero_add entry.tally)
      | some tally => rfl
    · rw [if_neg hg, if_neg (Ne.symm hg)]

/-- Merging adds up the two tallies of a group; a group that one side lacks keeps the other's. -/
theorem get?_merge (x y : Tallies) (group : String) :
    (x.merge y).get? group = Option.merge (· + ·) (x.get? group) (y.get? group) :=
  get?_foldl_add group y.sorted x

/-- Tallies may be merged in any grouping. -/
theorem merge_assoc (x y z : Tallies) : (x.merge y).merge z = x.merge (y.merge z) := by
  refine ext_get? ?_
  intro group
  simp only [get?_merge]
  cases x.get? group <;> cases y.get? group <;> cases z.get? group <;> try rfl
  exact congrArg some (Tally.add_assoc ..)

theorem merge_empty (x : Tallies) : x.merge empty = x := rfl

/-- Tallies that are merged into none are themselves, entry by entry. -/
theorem empty_merge (x : Tallies) : empty.merge x = x := by
  refine ext_get? ?_
  intro group
  rw [get?_merge]
  exact Option.merge_none_left

end Tallies

/-! ## Reports -/

namespace Report

/-- Reports may be merged in any grouping. -/
theorem merge_assoc (x y z : Report) : (x.merge y).merge z = x.merge (y.merge z) := by
  unfold merge
  simp only [Nat.add_assoc, List.append_assoc, Tallies.merge_assoc]

theorem merge_default (x : Report) : x.merge {} = x := by
  unfold merge
  rw [Nat.add_zero, List.append_nil, Tallies.merge_empty]

/-- A report that is merged into an empty one is itself. -/
theorem default_merge (x : Report) : merge {} x = x := by
  unfold merge
  rw [Nat.zero_add, List.nil_append, Tallies.empty_merge]

theorem total_merge (x y : Report) : (x.merge y).total = x.total + y.total := by
  simp only [total, merge, List.length_append]
  omega

theorem isSuccess_merge (x y : Report) :
    (x.merge y).isSuccess = true ↔ x.isSuccess = true ∧ y.isSuccess = true := by
  simp [isSuccess, merge]

/-- A verdict adds what a run of the one scenario would report. -/
theorem record_eq_merge (report : Report) (s : Scenario) (verdict : Verdict) :
    report.record s verdict = report.merge (record {} s verdict) := by
  cases verdict <;> simp [record, merge] <;> rfl

/-- Verdicts that come after a report add to it what they would come to on their own. -/
theorem foldl_record (report : Report) (scenarios : List Scenario) :
    scenarios.foldl (fun report s => report.record s s.verdict) report =
      report.merge (scenarios.foldl (fun report s => report.record s s.verdict) {}) := by
  induction scenarios generalizing report with
  | nil => exact (merge_default report).symm
  | cons s rest ih =>
    rw [List.foldl_cons, List.foldl_cons, ih, ih (record {} s s.verdict), record_eq_merge,
      merge_assoc]

end Report

/-! ## Runs -/

namespace Matrix

instance : Append Matrix := ⟨fun a b => ⟨a.scenarios ++ b.scenarios⟩⟩

/-- The scenarios of several matrices as one matrix. -/
def concat (ms : List Matrix) : Matrix := ⟨ms.flatMap scenarios⟩

/-- The reports of several matrices, merged into a report one after another. -/
def mergeRuns (report : Report) (ms : List Matrix) : Report :=
  ms.foldl (fun report m => report.merge m.run.value) report

/-- A matrix in two parts is reported by merging the reports of the parts. -/
theorem value_run_append (a b : Matrix) : (a ++ b).run.value = a.run.value.merge b.run.value := by
  rw [value_run, value_run, value_run]
  show (a.scenarios ++ b.scenarios).foldl _ _ = _
  rw [List.foldl_append, Report.foldl_record]

/-- Merging the runs of pieces is running the whole, after whatever has been reported before. -/
theorem mergeRuns_eq (report : Report) (ms : List Matrix) :
    mergeRuns report ms = report.merge (concat ms).run.value := by
  induction ms generalizing report with
  | nil => exact (Report.merge_default report).symm
  | cons m rest ih =>
    have hconcat : concat (m :: rest) = m ++ concat rest := rfl
    rw [hconcat, value_run_append, ← Report.merge_assoc]
    exact ih (report.merge m.run.value)

end Matrix

/-- A file that holds a printed matrix loads as the matrix. -/
theorem Files.load_of_print {files : Files} {path : String} {m : Matrix}
    (h : files path = .ok m.print.toByteArray) : files.load path = .ok m := by
  have htext : files.text path = .ok m.print := by
    simp only [text, h, String.fromUTF8?, dif_pos m.print.isValidUTF8]
    rfl
  simp only [load, htext, Matrix.read_print]

namespace Command

/-- The files of a command are run as their matrices are, if all of them load. -/
theorem value_runFiles {files : Files} {paths : List String} {ms : List Matrix}
    (h : List.Forall₂ (fun path m => files.load path = .ok m) paths ms) (report : Report)
    (sink : Sink) :
    (runFiles files report paths sink).value = (.ok (Matrix.mergeRuns report ms), sink) := by
  induction h generalizing report with
  | nil => rfl
  | @cons path m paths ms hload _ ih =>
    have hnext := ih (report.merge m.run.value)
    rw [runFiles, hload]
    exact hnext

end Command

namespace Matrix

/-- **Running is a homomorphism into the monoid of reports.** The pieces into which a list of
scenarios is cut do not show in what their merged reports say, nor do the files of a command. -/
theorem run_append_merge :
    (∀ a b : Matrix, (a ++ b).run.value = a.run.value.merge b.run.value) ∧
    (mk []).run.value = {} ∧
    (∀ x y z : Report, (x.merge y).merge z = x.merge (y.merge z)) ∧
    (∀ x : Report, x.merge {} = x ∧ Report.merge {} x = x) ∧
    (∀ x y : Report, (x.merge y).total = x.total + y.total ∧
      ((x.merge y).isSuccess = true ↔ x.isSuccess = true ∧ y.isSuccess = true)) ∧
    (∀ ms, mergeRuns {} ms = (concat ms).run.value) ∧
    (∀ files paths ms sink, List.Forall₂ (fun path m => files.load path = .ok m) paths ms →
      (Command.runFiles files {} paths sink).value = (.ok (concat ms).run.value, sink)) := by
  have hpieces : ∀ ms, mergeRuns {} ms = (concat ms).run.value := by
    intro ms
    rw [mergeRuns_eq, Report.default_merge]
  refine ⟨value_run_append, rfl, Report.merge_assoc,
    fun x => ⟨Report.merge_default x, Report.default_merge x⟩,
    fun x y => ⟨Report.total_merge x y, Report.isSuccess_merge x y⟩, hpieces, ?_⟩
  intro files paths ms sink h
  rw [Command.value_runFiles h, hpieces]

/-- Two matrices that share a group, in which each of them has a failure. -/
def sharing (path : String) : Matrix :=
  if path = "first" then
    ⟨[⟨"sum", "a", .add, [⟨.i32, 1⟩, ⟨.i32, 2⟩], none, .value ⟨.i32, 3⟩⟩,
      ⟨"minus", "b", .neg, [⟨.u64, 1⟩], none, .value ⟨.i64, 1⟩⟩]⟩
  else
    ⟨[⟨"half", "b", .div, [⟨.u32, 1⟩, ⟨.u32, 0⟩], none, .error .divisionByZero⟩,
      ⟨"flip", "b", .not, [⟨.u32, 1⟩], some .i32, .value ⟨.i32, 0⟩⟩]⟩

def sharingFiles : Files := fun path => .ok (sharing path).print.toByteArray

theorem run_append_merge_sharing :
    List.Forall₂ (fun path m => sharingFiles.load path = .ok m)
      ["first", "second"] [sharing "first", sharing "second"] ∧
    (Command.runFiles sharingFiles {} ["first", "second"] {}).value =
      (.ok (concat [sharing "first", sharing "second"]).run.value, {}) := by
  have hload : List.Forall₂ (fun path m => sharingFiles.load path = .ok m)
      ["first", "second"] [sharing "first", sharing "second"] :=
    .cons (Files.load_of_print rfl) (.cons (Files.load_of_print rfl) .nil)
  exact ⟨hload, run_append_merge.2.2.2.2.2.2 _ _ _ _ hload⟩

end Matrix

end FixedWidth
