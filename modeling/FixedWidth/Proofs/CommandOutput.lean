import FixedWidth.Proofs.Arguments
import FixedWidth.Proofs.Delivery
import FixedWidth.Proofs.Merging

/-!
# The output of commands

What each command yields: the text that it writes where there is room for it, and its result.

- `yields_runFiles_loaded`, `yields_runFiles_failed`: loading and running files writes nothing, and
  the first path that cannot be loaded ends it;
- `yields_performRun_loaded`, `yields_performEval_ok`: what is written then is one text;
- `writesLast_invoke`: every command has met its last error, but for the sink's, before it writes.

> `output_within_limit`: with a limit, the output of a command is the beginning of its output
> without one, and the result is the same as long as nothing is cut off.
-/

namespace FixedWidth

/-! ## Arguments and files -/

/-- Arguments that are no request are wrong in their use or hold a bad literal. -/
theorem Request.extend_error {request : Request} {arguments : List String} {e : CommandError}
    (h : request.extend arguments = .error e) :
    (∃ cause, e = .usage cause) ∨ ∃ cause, e = .evaluation cause := by
  fun_induction Request.extend request arguments with
  | case1 request => cases h
  | case2 request rest ih => exact ih h
  | case3 request => exact Or.inl ⟨_, (Except.error.inj h).symm⟩
  | case4 request name rest hname => exact Or.inl ⟨_, (Except.error.inj h).symm⟩
  | case5 request name rest type hname ih => exact ih h
  | case6 request literal rest _ _ _ cause hread => exact Or.inr ⟨_, (Except.error.inj h).symm⟩
  | case7 request literal rest _ _ _ v hread ih => exact ih h

/-- What is wrong with the arguments of an evaluation is their use or a literal. -/
theorem Request.ofArguments_error {arguments : List String} {e : CommandError}
    (h : Request.ofArguments arguments = .error e) :
    (∃ cause, e = .usage cause) ∨ ∃ cause, e = .evaluation cause := by
  unfold Request.ofArguments at h
  split at h
  · exact Or.inl ⟨_, (Except.error.inj h).symm⟩
  · split at h
    · exact Or.inl ⟨_, (Except.error.inj h).symm⟩
    · exact Request.extend_error h

/-- Whether some paths lead to some matrices, one to one. -/
def Files.Load (files : Files) (paths : List String) (ms : List Matrix) : Prop :=
  List.Forall₂ (fun path m => files.load path = .ok m) paths ms

/-- Either all paths lead to matrices, or there is a first one that does not. -/
theorem Files.load_cases (files : Files) (paths : List String) :
    (∃ ms, files.Load paths ms) ∨
    ∃ earlier path later ms e, paths = earlier ++ path :: later ∧ files.Load earlier ms ∧
      files.load path = .error e :=
  forall₂_or_first files.load paths

/-! ## Commands -/

namespace Command

open CommandM

/-- What is wrong with any arguments is their use or a literal, and never a file or the sink. -/
theorem ofArguments_error {arguments : List String} {e : CommandError}
    (h : ofArguments arguments = .error e) :
    (∃ cause, e = .usage cause) ∨ ∃ cause, e = .evaluation cause := by
  unfold ofArguments at h
  split at h
  next => exact Or.inl ⟨_, (Except.error.inj h).symm⟩
  next paths =>
    split at h
    · exact Or.inl ⟨_, (Except.error.inj h).symm⟩
    · cases h
  next rest =>
    -- The rest of an `eval` is wrong only if the request that it stands for is.
    cases hrequest : Request.ofArguments rest with
    | error cause =>
      rw [hrequest] at h
      exact Except.error.inj h ▸ Request.ofArguments_error hrequest
    | ok request =>
      rw [hrequest] at h
      cases h
  next => cases h
  next => cases h
  next => cases h
  next => cases h
  next => exact Or.inl ⟨_, (Except.error.inj h).symm⟩

variable {files : Files} {paths : List String} {ms : List Matrix}

/-- Files that can be loaded are run without a byte being written. -/
theorem yields_runFiles_loaded (h : files.Load paths ms) (report : Report) :
    Yields (runFiles files report paths) [] (.ok (Matrix.mergeRuns report ms)) :=
  yields_silent (value_runFiles h report)

/-- The first path that cannot be loaded ends the run, whatever comes after it. -/
theorem yields_runFiles_failed (h : files.Load paths ms) {path : String} {e : LoadError}
    (hfail : files.load path = .error e) (later : List String) (report : Report) :
    Yields (runFiles files report (paths ++ path :: later)) [] (.error (.loading e)) := by
  induction h generalizing report with
  | nil =>
    rw [List.nil_append, runFiles, hfail]
    exact (yields_tell _).bind_silent (yields_ofExcept_error _ _).bind_error
  | @cons first m rest ms hload _ ih =>
    rw [List.cons_append, runFiles, hload]
    exact (yields_tell _).bind_silent ((yields_ofExcept_ok _ _).bind_silent
      ((yields_logged _).bind_silent (ih _)))

/-- The output of a run is the text of the merged report, with its last line ended. -/
theorem yields_performRun_loaded (h : files.Load paths ms) :
    Yields (performRun files paths)
      (Text.bytes ((Matrix.concat ms).run.value.text ++ "\n"))
      (.ok (Matrix.concat ms).run.value.isSuccess) := by
  have hfiles := yields_runFiles_loaded h {}
  rw [Matrix.mergeRuns_eq, Report.default_merge] at hfiles
  have hlines : (Matrix.concat ms).run.value.lines ≠ [] :=
    List.append_ne_nil_of_right_ne_nil _ (List.cons_ne_nil _ _)
  have hwrites := yields_forM yields_emitLine (Matrix.concat ms).run.value.lines
  rw [Text.bytes_lines hlines] at hwrites
  exact hfiles.bind_silent (hwrites.endWith _)

/-- The first file that cannot be loaded ends the command before its report is written. -/
theorem yields_performRun_failed (h : files.Load paths ms) {path : String} {e : LoadError}
    (hfail : files.load path = .error e) (later : List String) :
    Yields (performRun files (paths ++ path :: later)) [] (.error (.loading e)) :=
  (yields_runFiles_failed h hfail later {}).bind_error

/-- What is written about a result: its line, and one with its bytes if they are wanted. -/
def resultText (result : Evaluated) (bytes : Bool) : String :=
  result.value.described ++ "\n" ++
    if bytes then "immediate: " ++ byteDigits result.value.immediate ++ "\n" else ""

/-- An evaluation with a value writes the text about it. -/
theorem yields_performEval_ok (request : Request) {result : Evaluated}
    (h : evaluateInto request.op request.operands request.target = .ok result) :
    Yields (performEval request) (Text.bytes (resultText result request.bytes)) (.ok true) := by
  have hlogged := yields_logged
    (evaluateIntoLogged request.op request.operands request.target)
  rw [value_evaluateIntoLogged, h] at hlogged
  refine hlogged.bind_silent ((yields_ofExcept_ok _ _).bind_silent ?_)
  unfold resultText
  rw [Text.bytes_append]
  refine (yields_emitLine _).bind ?_
  cases request.bytes with
  | false => exact yields_pure true
  | true => exact (yields_emitLine _).endWith true

theorem yields_performEval_error (request : Request) {e : EvalError}
    (h : evaluateInto request.op request.operands request.target = .error e) :
    Yields (performEval request) [] (.error (.evaluation e)) := by
  have hlogged := yields_logged
    (evaluateIntoLogged request.op request.operands request.target)
  rw [value_evaluateIntoLogged, h] at hlogged
  exact hlogged.bind_silent (yields_ofExcept_error _ _).bind_error

/-- A command is carried out once its arguments have been read, which writes nothing. -/
theorem yields_invoke {arguments : List String} {command : Command}
    (h : ofArguments arguments = .ok command) {bytes : List UInt8}
    {outcome : Except CommandError Bool} (hperform : Yields (perform files command) bytes outcome) :
    Yields (invoke files arguments) bytes outcome := by
  unfold invoke
  rw [h]
  exact (yields_ofExcept_ok _ _).bind_silent hperform

/-- Every command has made all of its other errors before it writes. -/
theorem writesLast_perform (files : Files) (command : Command) :
    WritesLast (perform files command) := by
  cases command with
  | run paths =>
    rcases files.load_cases paths with ⟨ms, hms⟩ | ⟨earlier, path, later, ms, e, rfl, hms, hfail⟩
    · exact .done (yields_performRun_loaded hms)
    · exact .failed (yields_performRun_failed hms hfail later) nofun
  | eval request =>
    cases h : evaluateInto request.op request.operands request.target with
    | ok result => exact .done (yields_performEval_ok request h)
    | error e => exact .failed (yields_performEval_error request h) nofun
  | table => exact .done ((yields_forM yields_emitRow _).endWith true)
  | help => exact .done ((yields_emitLine usage).endWith true)

/-- So it is for any arguments, as reading them writes nothing. -/
theorem writesLast_invoke (files : Files) (arguments : List String) :
    WritesLast (invoke files arguments) := by
  unfold invoke
  cases h : ofArguments arguments with
  | ok command => exact .bind_silent (yields_ofExcept_ok _ _) (writesLast_perform files command)
  | error e =>
    refine .failed (yields_ofExcept_error id e).bind_error ?_
    intro cause he
    rcases ofArguments_error h with ⟨_, rfl⟩ | ⟨_, rfl⟩ <;> cases he

/-! ## Limits -/

/-- What the command of the arguments ends with, on a sink with a limit or without one. -/
def result (files : Files) (arguments : List String) (limit : Option Nat) :
    Except CommandError Bool :=
  (invoke files arguments { limit }).value.1

/-- What the command of the arguments writes to such a sink. -/
def output (files : Files) (arguments : List String) (limit : Option Nat) : List UInt8 :=
  (invoke files arguments { limit }).value.2.taken

/-- Without a limit everything is written, and the computation ends as it does. -/
theorem eq_of_yields {files : Files} {arguments : List String} {bytes : List UInt8}
    {outcome : Except CommandError Bool} (h : Yields (invoke files arguments) bytes outcome) :
    output files arguments none = bytes ∧ result files arguments none = outcome := by
  unfold output result
  rw [h, if_pos (Sink.hasRoom_unlimited bytes)]
  exact ⟨rfl, rfl⟩

/-- With a limit the output is cut there, and if that loses anything the sink's error is the end. -/
theorem eq_of_yields_limited {files : Files} {arguments : List String} {bytes : List UInt8}
    {outcome : Except CommandError Bool} (h : Yields (invoke files arguments) bytes outcome)
    (limit : Nat) :
    output files arguments (some limit) = bytes.take limit ∧
    result files arguments (some limit) =
      if limit < bytes.length then .error (.writing .full) else outcome := by
  unfold output result
  rw [h, Sink.ite_hasRoom_limited]
  exact ⟨rfl, rfl⟩

/-- **A sink with a limit sees the beginning of what one without a limit sees.** -/
theorem output_within_limit (files : Files) (arguments : List String) (limit : Nat) :
    output files arguments (some limit) = (output files arguments none).take limit ∧
    result files arguments (some limit) =
      (if limit < (output files arguments none).length then .error (.writing .full)
        else result files arguments none) ∧
    (∀ e, result files arguments none = .error e →
      output files arguments none = [] ∧ ∀ cause, e ≠ .writing cause) ∧
    (∀ (pieces : List String) (sink : Sink),
      (pieces.forM emit sink).value = (emit (String.join pieces) sink).value) ∧
    ∀ v : Value, v.writeImmediate {} = (.ok (), { taken := v.immediate }) ∧
      v.writeImmediate { limit := some limit } =
        (if limit < v.immediate.length then .error .full else .ok (),
          { limit := some limit, taken := v.immediate.take limit }) := by
  obtain ⟨bytes, outcome, hyields, hclean⟩ := (writesLast_invoke files arguments).exists_yields
  obtain ⟨houtput, hresult⟩ := eq_of_yields hyields
  obtain ⟨hcut, hend⟩ := eq_of_yields_limited hyields limit
  rw [houtput, hresult]
  exact ⟨hcut, hend, hclean, value_forM_emit,
    fun v => ⟨v.writeImmediate_unlimited, v.writeImmediate_limited limit⟩⟩

/-- A division by zero that asks for the bytes of its result, and never gets to a full sink. -/
theorem output_within_limit_zeroDivisor :
    result (fun _ => .error .notFound) ["eval", "mod", "u32:1", "--bytes", "i64:0"] none =
        .error (.evaluation (.divisionByZero .mod .u32 .i64)) ∧
      output (fun _ => .error .notFound) ["eval", "mod", "u32:1", "--bytes", "i64:0"] none = [] := by
  have hresult :
      result (fun _ => .error .notFound) ["eval", "mod", "u32:1", "--bytes", "i64:0"] none =
        .error (.evaluation (.divisionByZero .mod .u32 .i64)) := by rfl
  exact ⟨hresult, ((output_within_limit _ _ 0).2.2.1 _ hresult).1⟩

end Command

end FixedWidth
