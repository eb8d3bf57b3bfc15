import ModelDirectives.Proofs.CommandRuns

namespace ModelDirectives

namespace Run

variable {Place : Type} {fs : FileSystem Place} {files : Files Place}
  {o o' : Options} {m : Model}

/-- What a run fails with, if it does. -/
def failure? (fs : FileSystem Place) (files : Files Place) (o : Options) : Option Failure :=
  match (loading fs files o).outcome with
  | .error fault => some (.load o.model fault)
  | .ok m =>
    if o.strict && (Report.ofModel m).hasProblems then
      some (.strict (Report.ofModel m).totals.problems)
    else
      match o.out.map (fs.target files) with
      | some (.error fault) => some (.output fault)
      | _ => none

theorem failure?_of_error {fault : LoadFault} (load : (loading fs files o).outcome = .error fault) :
    failure? fs files o = some (.load o.model fault) := by
  unfold failure?
  rw [load]

theorem failure?_of_gated (load : (loading fs files o).outcome = .ok m) (strict : o.strict)
    (problems : (Report.ofModel m).hasProblems) :
    failure? fs files o = some (.strict (Report.ofModel m).totals.problems) := by
  unfold failure?
  rw [load]
  simp [strict, problems]

/-- A run that passes its checks fails only where its output cannot be written. -/
theorem failure?_of_passes (passes : Passes fs files o m) : failure? fs files o =
    match o.out.map (fs.target files) with
    | some (.error fault) => some (.output fault)
    | _ => none := by
  unfold failure?
  rw [passes.1]
  simp only [passes.2, Bool.false_eq_true, if_false]

/-- The format, and how much is logged, have no part in whether a run fails. -/
theorem failure?_congr (model : o'.model = o.model) (strict : o'.strict = o.strict)
    (out : o'.out = o.out) : failure? fs files o' = failure? fs files o := by
  unfold failure?
  rw [loading_congr model, model, strict, out]

theorem outcome_congr (model : o'.model = o.model) (strict : o'.strict = o.strict)
    (format : o'.format = o.format) :
    (resolve o' (fs.read files o'.model)).outcome =
      (resolve o (fs.read files o.model)).outcome := by
  unfold resolve
  rw [model, strict, format]

theorem logged_of_quiet (quiet : o.quiet) : logged fs files o = [] := by
  unfold logged
  apply List.filter_eq_nil_iff.mpr
  intro n _
  simp [Options.logs, quiet]

/-- Without further options the log holds the warnings among everything that can be logged. -/
theorem logged_of_default (model : o'.model = o.model) (verbose : o.verbose)
    (loud : o.quiet = false) (terse : o'.verbose = false) (loud' : o'.quiet = false) :
    logged fs files o' = (logged fs files o).filter (·.level = .warning) := by
  unfold logged
  rw [List.filter_filter, model, notices_resolve o o']
  apply List.filter_congr
  intro n _
  simp [Options.logs, verbose, loud, terse, loud']

variable [DecidableEq Place]

/-- What a run fails with settles its exit code and its complaint. -/
theorem exit_and_errors (fs : FileSystem Place) (files : Files Place) (o : Options) :
    (ofOptions fs files o).exit = (if (failure? fs files o).isSome then 1 else 0) ∧
      (ofOptions fs files o).errors = ((failure? fs files o).map Failure.text).getD "" := by
  have c := course fs files o
  generalize ofOptions fs files o = run at c ⊢
  cases c with
  | unloaded load => rw [failure?_of_error load]; exact ⟨rfl, rfl⟩
  | gated load strict problems =>
    rw [failure?_of_gated load strict problems]
    exact ⟨rfl, rfl⟩
  | unwritten passes out write =>
    rw [failure?_of_passes passes, out, Option.map_some, FileSystem.write_eq_error_iff.mp write]
    exact ⟨rfl, rfl⟩
  | printed passes out =>
    rw [failure?_of_passes passes, out]
    exact ⟨rfl, rfl⟩
  | written passes out write =>
    obtain ⟨place, target, -⟩ := FileSystem.write_eq_ok_iff.mp write
    rw [failure?_of_passes passes, out, Option.map_some, target]
    exact ⟨rfl, rfl⟩

/-- Neither the form of the report nor the amount of logging changes whether and why a run fails. -/
theorem exit_and_errors_congr (fs : FileSystem Place) (files : Files Place)
    (model : o'.model = o.model) (strict : o'.strict = o.strict) (out : o'.out = o.out) :
    (ofOptions fs files o').exit = (ofOptions fs files o).exit ∧
      (ofOptions fs files o').errors = (ofOptions fs files o).errors := by
  obtain ⟨exit, errors⟩ := exit_and_errors fs files o
  obtain ⟨exit', errors'⟩ := exit_and_errors fs files o'
  rw [exit, errors, exit', errors', failure?_congr model strict out]
  exact ⟨rfl, rfl⟩

/-- What is handed over does not depend on the log. -/
theorem handingOver_of_log (log log' : List Notice) (out : Option String)
    (outcome : Except Failure String) :
    handingOver fs files log' out outcome =
      { handingOver fs files log out outcome with log := log' } := by
  cases outcome with
  | error failure => rfl
  | ok rendered =>
    cases out with
    | none => rfl
    | some path =>
      rw [handingOver_write, handingOver_write]
      cases fs.write files path rendered.toUTF8 <;> rfl

/-- Runs that resolve the model alike and write to one place differ in their logs at most. -/
theorem ofOptions_of_outcome (out : o'.out = o.out)
    (same : (resolve o' (fs.read files o'.model)).outcome =
      (resolve o (fs.read files o.model)).outcome) :
    ofOptions fs files o' = { ofOptions fs files o with log := logged fs files o' } := by
  rw [ofOptions_eq, ofOptions_eq, same, out]
  exact handingOver_of_log _ _ _ _

theorem ofOptions_of_logging (model : o'.model = o.model) (out : o'.out = o.out)
    (format : o'.format = o.format) (strict : o'.strict = o.strict) :
    ofOptions fs files o' = { ofOptions fs files o with log := logged fs files o' } :=
  ofOptions_of_outcome out (outcome_congr model strict format)

/-- A run that strictness does not make fail is the run without it. -/
theorem ofOptions_of_lenient (model : o'.model = o.model) (out : o'.out = o.out)
    (format : o'.format = o.format) (verbose : o'.verbose = o.verbose) (quiet : o'.quiet = o.quiet)
    (lenient : o'.strict = false) (succeeds : (ofOptions fs files o).exit = 0) :
    ofOptions fs files o' = ofOptions fs files o := by
  obtain ⟨blocked, exit, -⟩ | ⟨-, -, m, ⟨load, gate⟩, -⟩ := failed_or_finished fs files o
  · rw [exit] at succeeds
    cases succeeds
  · -- The strict run passed the gate, so there are no problems that it could have held back.
    have load' : (loading fs files o').outcome = .ok m := by rw [loading_congr model, load]
    have same : (resolve o' (fs.read files o'.model)).outcome =
        (resolve o (fs.read files o.model)).outcome := by
      rw [resolve_of_ok load, resolve_of_ok load', gate, lenient, format]
      rfl
    rw [ofOptions_of_outcome out same, logged_congr model verbose quiet, ← log_eq_logged]

/-- What a run prints that writes no file is what another one writes. -/
theorem prints_what_is_written (lawful : fs.Lawful) {path : String} (model : o'.model = o.model)
    (format : o'.format = o.format) (strict : o'.strict = o.strict) (out : o.out = some path)
    (out' : o'.out = none) (succeeds : (ofOptions fs files o).exit = 0) :
    (ofOptions fs files o').exit = 0 ∧
      Delivers fs files (ofOptions fs files o) (ofOptions fs files o').output (some path) := by
  have free := exit_eq_zero_iff.mp succeeds
  obtain ⟨m, load, gate⟩ := passes_of_not_blocked free
  have passes : Passes fs files o' m := by
    rw [Passes, loading_congr model, strict]
    exact ⟨load, gate⟩
  have free' := passes.not_blocked out'
  have delivers := delivers_of_not_blocked lawful free load
  have delivers' := delivers_of_not_blocked lawful free' passes.1
  rw [out', format] at delivers'
  rw [out] at delivers
  refine ⟨exit_eq_zero_iff.mpr free', ?_⟩
  rw [delivers'.1]
  exact delivers

/-- Two runs on the same files and the same model. Where they differ in the amount of logging, their
logs differ and nothing else: a quiet one is empty, and one without either switch holds the warnings
of a verbose one. Where one of them is strict and does not fail, they do not differ; their logs
never do. The form of the report is not seen in exit code, log and complaint. What is written to a
file is what is printed otherwise. -/
theorem options_do_not_interfere (lawful : fs.Lawful) (files : Files Place)
    {args args' : List String} (h : Arguments.read args = .ok o)
    (h' : Arguments.read args' = .ok o') (model : o'.model = o.model) :
    let run := ofArguments fs files args
    let run' := ofArguments fs files args'
    (o'.out = o.out → o'.format = o.format → o'.strict = o.strict →
      (run'.exit = run.exit ∧ run'.output = run.output ∧ run'.errors = run.errors ∧
        run'.files = run.files) ∧
      (o'.quiet → run'.log = []) ∧
      (o.verbose → o.quiet = false → o'.verbose = false → o'.quiet = false →
        run'.log = run.log.filter (·.level = .warning))) ∧
    (o'.out = o.out → o'.format = o.format → o'.verbose = o.verbose → o'.quiet = o.quiet →
      o.strict → o'.strict = false →
      (run.exit = 0 → run' = run) ∧ run'.log = run.log) ∧
    (o'.out = o.out → o'.strict = o.strict → o'.verbose = o.verbose → o'.quiet = o.quiet →
      run'.exit = run.exit ∧ run'.log = run.log ∧ run'.errors = run.errors) ∧
    ∀ path, o.out = some path → o'.out = none → o'.format = o.format → o'.strict = o.strict →
      run.exit = 0 → run'.exit = 0 ∧ fs.read run.files path = .ok run'.output.toUTF8 ∧
        ∃ place, fs.target files path = .ok place ∧
          run.files place = some run'.output.toUTF8 := by
  intro run run'
  have eq : run = ofOptions fs files o := ofArguments_of_read h
  have eq' : run' = ofOptions fs files o' := ofArguments_of_read h'
  rw [eq, eq']
  refine ⟨?_, ?_, ?_, ?_⟩
  · intro out format strict
    refine ⟨?_, ?_, ?_⟩
    · rw [ofOptions_of_logging model out format strict]
      exact ⟨rfl, rfl, rfl, rfl⟩
    · intro quiet
      rw [log_eq_logged, logged_of_quiet quiet]
    · intro verbose loud terse loud'
      rw [log_eq_logged, log_eq_logged, logged_of_default model verbose loud terse loud']
  · intro out format verbose quiet strict lenient
    refine ⟨ofOptions_of_lenient model out format verbose quiet lenient, ?_⟩
    rw [log_eq_logged, log_eq_logged, logged_congr model verbose quiet]
  · intro out strict verbose quiet
    obtain ⟨exit, errors⟩ := exit_and_errors_congr fs files model strict out
    refine ⟨exit, ?_, errors⟩
    rw [log_eq_logged, log_eq_logged, logged_congr model verbose quiet]
  · intro path out out' format strict succeeds
    obtain ⟨succeeds', -, read, place, target, holds, -⟩ :=
      prints_what_is_written lawful model format strict out out' succeeds
    exact ⟨succeeds', read, place, target, holds⟩

theorem options_do_not_interfere_sample :
    let written := ["resolve", "--model", "../home/m.json", "--format", "text", "-o", "/r.txt"]
    let printed := ["resolve", "--model", "../home/m.json", "--format", "text"]
    let verbose := ["-v", "resolve", "--model", "../home/m.json", "--format", "text"]
    Arguments.read written = .ok ⟨"../home/m.json", some "/r.txt", .text, false, false, false⟩ ∧
      Arguments.read printed = .ok ⟨"../home/m.json", none, .text, false, false, false⟩ ∧
      Arguments.read verbose = .ok ⟨"../home/m.json", none, .text, false, true, false⟩ ∧
      (ofArguments sampleTree.fileSystem sampleFiles written).exit = 0 ∧
      (ofArguments sampleTree.fileSystem sampleFiles printed).exit = 0 ∧
      (ofArguments sampleTree.fileSystem sampleFiles written).files ["r.txt"] =
        some (ofArguments sampleTree.fileSystem sampleFiles printed).output.toUTF8 ∧
      (ofArguments sampleTree.fileSystem sampleFiles printed).output =
        (ofArguments sampleTree.fileSystem sampleFiles verbose).output ∧
      (ofArguments sampleTree.fileSystem sampleFiles printed).log =
        (ofArguments sampleTree.fileSystem sampleFiles verbose).log.filter
          (·.level = .warning) := by
  intro written printed verbose
  have toFile : Arguments.read written =
      .ok ⟨"../home/m.json", some "/r.txt", .text, false, false, false⟩ := rfl
  have toOutput : Arguments.read printed =
      .ok ⟨"../home/m.json", none, .text, false, false, false⟩ := rfl
  have telling : Arguments.read verbose =
      .ok ⟨"../home/m.json", none, .text, false, true, false⟩ := rfl
  have passes : Passes sampleTree.fileSystem sampleFiles
      ⟨"../home/m.json", some "/r.txt", .text, false, false, false⟩ Model.sample :=
    ⟨Loading.ofFile_text Model.sample_wellFormed, rfl⟩
  have free : sampleTree.fileSystem.target sampleFiles "/r.txt" = .ok ["r.txt"] := rfl
  have exit : (ofArguments sampleTree.fileSystem sampleFiles written).exit = 0 := by
    rw [ofArguments_of_read toFile, (exit_and_errors sampleTree.fileSystem sampleFiles _).1,
      failure?_of_passes passes, Option.map_some, free]
    rfl
  have interplay := options_do_not_interfere sampleTree.lawful sampleFiles toFile toOutput rfl
  obtain ⟨exit', -, place, target, holds⟩ := interplay.2.2.2 "/r.txt" rfl rfl rfl rfl exit
  cases free.symm.trans target
  obtain ⟨logging, -⟩ :=
    options_do_not_interfere sampleTree.lawful sampleFiles telling toOutput rfl
  obtain ⟨⟨-, output, -, -⟩, -, log⟩ := logging rfl rfl rfl
  exact ⟨toFile, toOutput, telling, exit, exit', holds, output, log rfl rfl rfl rfl⟩

end Run

end ModelDirectives
