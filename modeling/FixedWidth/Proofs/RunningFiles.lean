import FixedWidth.Proofs.Accounting
import FixedWidth.Proofs.CommandOutput

/-!
# Running files

Files are run as one matrix or not at all. Either every path leads to a matrix, and there is one
report, that of a run over the scenarios of all of them; or there is a first path that does not, its
error is the result, and nothing is written.

- `Matrix.isSuccess_run_iff`: a report is a success exactly if every scenario passes;
- `Files.load_eq_error_iff`: the error of a path names the path, and says whether it could not be
  read or its text holds no matrix;
- `run_loaded`, `run_failed`: the result and the output, by whether all paths can be loaded;
- `run_cases`: there are three ways in which a run over files ends, and the status tells them apart.

> `run_all_or_nothing`: the result, the output and the status of a run over files, by what each
> path leads to.
-/

namespace FixedWidth

/-- A run succeeds exactly if every scenario passes. -/
theorem Matrix.isSuccess_run_iff (m : Matrix) :
    m.run.value.isSuccess = true ↔ ∀ s ∈ m.scenarios, s.passes = true := by
  unfold Report.isSuccess
  rw [m.accounts_run.failures, List.isEmpty_iff, List.filterMap_eq_nil_iff]
  refine forall₂_congr ?_
  intro s _
  rw [← Option.not_isSome_iff_eq_none, Scenario.isSome_failure?]
  cases s.passes <;> decide

namespace Files

variable {files : Files} {paths : List String} {ms : List Matrix}

/-- A path cannot be loaded because it cannot be read, or because its text holds no matrix. -/
theorem load_eq_error_iff {path : String} {e : LoadError} :
    files.load path = .error e ↔
      (∃ cause, files.text path = .error cause ∧ e = .unreadable path cause) ∨
      ∃ text cause, files.text path = .ok text ∧ Matrix.read text = .error cause ∧
        e = .unparsable path cause := by
  unfold load
  cases htext : files.text path with
  | error cause => simp [eq_comm]
  | ok text =>
    cases hread : Matrix.read text with
    | error cause => simp [hread, eq_comm]
    | ok m => simp [hread]

theorem Load.exists_load (h : files.Load paths ms) {path : String} (hpath : path ∈ paths) :
    ∃ m, files.load path = .ok m := by
  induction h with
  | nil => cases hpath
  | cons hload _ ih =>
    rcases List.mem_cons.mp hpath with rfl | hrest
    · exact ⟨_, hload⟩
    · exact ih hrest

/-- The matrices are those to which the paths lead. -/
theorem Load.mem_iff (h : files.Load paths ms) {m : Matrix} :
    m ∈ ms ↔ ∃ path ∈ paths, files.load path = .ok m := by
  induction h with
  | nil => simp
  | cons hload _ ih => simp [ih, hload, eq_comm]

/-- Paths that lead to matrices one by one do so as a list. -/
theorem exists_load (h : ∀ path ∈ paths, ∃ m, files.load path = .ok m) :
    ∃ ms, files.Load paths ms := by
  rcases files.load_cases paths with hload | ⟨earlier, path, later, ms, e, rfl, _, hfail⟩
  · exact hload
  · obtain ⟨m, hm⟩ := h path (List.mem_append_right _ List.mem_cons_self)
    rw [hfail] at hm
    cases hm

end Files

/-- Several matrices succeed together exactly if every scenario of each passes. -/
theorem Matrix.isSuccess_concat_iff (ms : List Matrix) :
    (concat ms).run.value.isSuccess = true ↔
      ∀ m ∈ ms, ∀ s ∈ m.scenarios, s.passes = true := by
  rw [isSuccess_run_iff]
  exact List.forall_mem_flatMap

namespace Command

open CommandM

/-- The status with which the program ends after the command of some arguments. -/
def exitStatus (files : Files) (arguments : List String) : Nat :=
  (conclude (result files arguments none)).status

variable {files : Files} {paths : List String} {ms : List Matrix}

theorem ofArguments_run (hpaths : paths ≠ []) : ofArguments ("run" :: paths) = .ok (.run paths) := by
  cases paths with
  | nil => exact absurd rfl hpaths
  | cons path rest => rfl

/-- Where all files can be loaded, one report of all their scenarios is written. -/
theorem run_loaded (hpaths : paths ≠ []) (h : files.Load paths ms) :
    output files ("run" :: paths) none =
      Text.bytes ((Matrix.concat ms).run.value.text ++ "\n") ∧
    result files ("run" :: paths) none = .ok (Matrix.concat ms).run.value.isSuccess :=
  eq_of_yields (yields_invoke (ofArguments_run hpaths) (yields_performRun_loaded h))

/-- Where a file cannot be loaded, nothing is written, and the first such file is the error. -/
theorem run_failed {earlier : List String} (h : files.Load earlier ms) {path : String}
    {e : LoadError} (hfail : files.load path = .error e) (later : List String) :
    output files ("run" :: (earlier ++ path :: later)) none = [] ∧
    result files ("run" :: (earlier ++ path :: later)) none = .error (.loading e) :=
  eq_of_yields (yields_invoke (ofArguments_run (by simp)) (yields_performRun_failed h hfail later))

/-- Whether every scenario of every file passes, by what the paths lead to. -/
theorem isSuccess_iff_of_load (h : files.Load paths ms) :
    (Matrix.concat ms).run.value.isSuccess = true ↔
      ∀ path ∈ paths, ∀ m, files.load path = .ok m → ∀ s ∈ m.scenarios, s.passes = true := by
  rw [Matrix.isSuccess_concat_iff]
  constructor
  · intro hall path hpath m hm
    exact hall m (h.mem_iff.mpr ⟨path, hpath, hm⟩)
  · intro hall m hm
    obtain ⟨path, hpath, hload⟩ := h.mem_iff.mp hm
    exact hall path hpath m hload

/-- Where all files can be loaded, the status is 0 or 1. -/
theorem exitStatus_loaded (hpaths : paths ≠ []) (h : files.Load paths ms) :
    exitStatus files ("run" :: paths) = if (Matrix.concat ms).run.value.isSuccess then 0 else 1 := by
  unfold exitStatus
  rw [(run_loaded hpaths h).2]
  cases (Matrix.concat ms).run.value.isSuccess <;> rfl

/-- A file that cannot be loaded makes the status 2. -/
theorem exitStatus_of_unloaded (files : Files) (hpaths : paths ≠ [])
    (h : ∃ path ∈ paths, ∃ e, files.load path = .error e) :
    exitStatus files ("run" :: paths) = 2 := by
  obtain ⟨failing, hmem, e', hfails⟩ := h
  unfold exitStatus
  -- The file that is known to fail need not be the first one that does.
  rcases files.load_cases paths with ⟨ms, hms⟩ | ⟨earlier, path, later, ms, e, rfl, hms, hfail⟩
  · obtain ⟨m, hm⟩ := hms.exists_load hmem
    rw [hfails] at hm
    cases hm
  · rw [(run_failed hms hfail later).2]
    rfl

theorem exitStatus_of_failing (files : Files) (hpaths : paths ≠ [])
    (h : (∀ path ∈ paths, ∃ m, files.load path = .ok m) ∧
      ∃ path ∈ paths, ∃ m, files.load path = .ok m ∧ ∃ s ∈ m.scenarios, s.passes = false) :
    exitStatus files ("run" :: paths) = 1 := by
  obtain ⟨hload, path, hpath, m, hm, s, hs, hfails⟩ := h
  obtain ⟨ms, hms⟩ := Files.exists_load hload
  rw [exitStatus_loaded hpaths hms, if_neg]
  intro hsuccess
  have hpasses := (isSuccess_iff_of_load hms).mp hsuccess path hpath m hm s hs
  rw [hfails] at hpasses
  cases hpasses

theorem exitStatus_of_passing (files : Files) (hpaths : paths ≠ [])
    (h : ∀ path ∈ paths, ∃ m, files.load path = .ok m ∧ ∀ s ∈ m.scenarios, s.passes = true) :
    exitStatus files ("run" :: paths) = 0 := by
  obtain ⟨ms, hms⟩ := Files.exists_load fun path hpath => ⟨_, (h path hpath).choose_spec.1⟩
  rw [exitStatus_loaded hpaths hms, if_pos]
  refine (isSuccess_iff_of_load hms).mpr ?_
  intro path hpath m hm
  obtain ⟨m', hm', hpasses⟩ := h path hpath
  rw [hm'] at hm
  exact Except.ok.inj hm ▸ hpasses

/-- Something is not loaded, or all is loaded and something fails, or all passes. -/
theorem run_cases (files : Files) (paths : List String) :
    (∃ path ∈ paths, ∃ e, files.load path = .error e) ∨
    ((∀ path ∈ paths, ∃ m, files.load path = .ok m) ∧
      ∃ path ∈ paths, ∃ m, files.load path = .ok m ∧ ∃ s ∈ m.scenarios, s.passes = false) ∨
    ∀ path ∈ paths, ∃ m, files.load path = .ok m ∧ ∀ s ∈ m.scenarios, s.passes = true := by
  by_cases hunloaded : ∃ path ∈ paths, ∃ e, files.load path = .error e
  · exact Or.inl hunloaded
  · have hload : ∀ path ∈ paths, ∃ m, files.load path = .ok m := by
      intro path hpath
      cases h : files.load path with
      | ok m => exact ⟨m, rfl⟩
      | error e => exact absurd ⟨path, hpath, e, h⟩ hunloaded
    by_cases hfailing : ∃ path ∈ paths, ∃ m, files.load path = .ok m ∧
        ∃ s ∈ m.scenarios, s.passes = false
    · exact Or.inr (Or.inl ⟨hload, hfailing⟩)
    · refine Or.inr (Or.inr ?_)
      intro path hpath
      obtain ⟨m, hm⟩ := hload path hpath
      refine ⟨m, hm, ?_⟩
      intro s hs
      by_contra hnot
      exact hfailing ⟨path, hpath, m, hm, s, hs, Bool.eq_false_iff.mpr hnot⟩

/-- **Files are run all together or not at all.** -/
theorem run_all_or_nothing (files : Files) (paths : List String) (hpaths : paths ≠ []) :
    (∀ earlier path later e, paths = earlier ++ path :: later →
      (∀ p ∈ earlier, ∃ m, files.load p = .ok m) → files.load path = .error e →
      result files ("run" :: paths) none = .error (.loading e) ∧
      output files ("run" :: paths) none = [] ∧
      ((∃ cause, files.text path = .error cause ∧ e = .unreadable path cause) ∨
        ∃ text cause, files.text path = .ok text ∧ Matrix.read text = .error cause ∧
          e = .unparsable path cause)) ∧
    (∀ ms, files.Load paths ms →
      output files ("run" :: paths) none =
        Text.bytes ((Matrix.concat ms).run.value.text ++ "\n") ∧
      ∃ success, result files ("run" :: paths) none = .ok success ∧
        (success = true ↔ ∀ m ∈ ms, ∀ s ∈ m.scenarios, s.passes = true)) ∧
    (exitStatus files ("run" :: paths) = 2 ↔ ∃ path ∈ paths, ∃ e, files.load path = .error e) ∧
    (exitStatus files ("run" :: paths) = 1 ↔
      (∀ path ∈ paths, ∃ m, files.load path = .ok m) ∧
      ∃ path ∈ paths, ∃ m, files.load path = .ok m ∧ ∃ s ∈ m.scenarios, s.passes = false) ∧
    (exitStatus files ("run" :: paths) = 0 ↔
      ∀ path ∈ paths, ∃ m, files.load path = .ok m ∧ ∀ s ∈ m.scenarios, s.passes = true) := by
  have hunloaded := exitStatus_of_unloaded files hpaths
  have hfailing := exitStatus_of_failing files hpaths
  have hpassing := exitStatus_of_passing files hpaths
  refine ⟨?_, ?_, ⟨?_, hunloaded⟩, ⟨?_, hfailing⟩, ⟨?_, hpassing⟩⟩
  · intro earlier path later e hsplit hearlier hfail
    subst hsplit
    obtain ⟨ms, hms⟩ := Files.exists_load hearlier
    obtain ⟨houtput, hresult⟩ := run_failed hms hfail later
    exact ⟨hresult, houtput, Files.load_eq_error_iff.mp hfail⟩
  · intro ms hms
    obtain ⟨houtput, hresult⟩ := run_loaded hpaths hms
    exact ⟨houtput, _, hresult, Matrix.isSuccess_concat_iff ms⟩
  · -- The three cases end with three statuses, so a status tells its case.
    intro hstatus
    rcases run_cases files paths with h | h | h
    · exact h
    · exact absurd (hfailing h) (by omega)
    · exact absurd (hpassing h) (by omega)
  · intro hstatus
    rcases run_cases files paths with h | h | h
    · exact absurd (hunloaded h) (by omega)
    · exact h
    · exact absurd (hpassing h) (by omega)
  · intro hstatus
    rcases run_cases files paths with h | h | h
    · exact absurd (hunloaded h) (by omega)
    · exact absurd (hfailing h) (by omega)
    · exact h

/-- A folder in which one file is gone and every other one holds the same matrix. -/
def folderWithout (gone : String) : Files := fun path =>
  if path = gone then .error .notFound else .ok Matrix.alternating.print.toByteArray

theorem load_folderWithout {gone path : String} (h : path ≠ gone) :
    (folderWithout gone).load path = .ok Matrix.alternating :=
  Files.load_of_print (if_neg h)

/-- A file that is gone between two that are not, and a file that is named twice. -/
theorem run_all_or_nothing_gone :
    (["a", "b", "c"] ≠ [] ∧
      result (folderWithout "b") ["run", "a", "b", "c"] none =
        .error (.loading (.unreadable "b" .notFound))) ∧
    (["a", "a"] ≠ [] ∧
      output (folderWithout "b") ["run", "a", "a"] none = Text.bytes
        ((Matrix.concat [Matrix.alternating, Matrix.alternating]).run.value.text ++ "\n") ∧
      exitStatus (folderWithout "b") ["run", "a", "a"] = 1) := by
  have ha : (folderWithout "b").load "a" = .ok Matrix.alternating := load_folderWithout (by decide)
  have hearlier : ∀ paths : List String, (∀ p ∈ paths, p = "a") →
      ∀ p ∈ paths, ∃ m, (folderWithout "b").load p = .ok m := by
    intro paths hpaths p hp
    rw [hpaths p hp]
    exact ⟨_, ha⟩
  have hbroken := run_all_or_nothing (folderWithout "b") ["a", "b", "c"] (by decide)
  have htwice := run_all_or_nothing (folderWithout "b") ["a", "a"] (by decide)
  have hfails : ∃ s ∈ Matrix.alternating.scenarios, s.passes = false := by decide
  exact ⟨⟨by decide, (hbroken.1 ["a"] "b" ["c"] _ rfl (hearlier ["a"] (by decide)) rfl).1⟩,
    by decide, (htwice.2.1 _ (.cons ha (.cons ha .nil))).1,
    htwice.2.2.2.1.mpr ⟨hearlier ["a", "a"] (by decide), "a", List.mem_cons_self, _, ha, hfails⟩⟩

end Command

end FixedWidth
